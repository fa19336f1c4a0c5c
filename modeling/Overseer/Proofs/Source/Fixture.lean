import Overseer.Proofs.FileTree.Listing
import Overseer.Proofs.Monitor.Mirror
import Overseer.Proofs.Source.Status
import Overseer.Source.Procfs

/-! What is read of a directory that has nothing but the status line of each of some processes.
`read_row`: a process that is there tells what its line says. `mem_scan`: its children are the
processes whose lines name it as their parent. -/

namespace Overseer

open FileTree (Plain)

/-! ## Processes -/

namespace Status

variable (s : Status)

/-- Neither the processor time nor the start leaves 64 bits. -/
structure Fits (p : Procfs) : Prop where
  ticks : (s.userTicks.toNat + s.systemTicks.toNat) * 1000 < UInt64.size
  start : ∀ boot, p.bootSeconds = some boot →
    boot.toNat + s.startTicks.toNat / p.ticksPerSecond.toNat < UInt64.size

/-- The milliseconds of processor time, at so many ticks to the second. -/
def cpuMillis (ticksPerSecond : UInt64) : UInt64 :=
  UInt64.ofNat ((s.userTicks.toNat + s.systemTicks.toNat) * 1000 / ticksPerSecond.toNat)

/-- What any source can tell of the process. -/
def outline : Snapshot := { pid := s.pid, parent := s.parent, name := String.ofList s.name }

variable {s} {p : Procfs}

theorem cpuMillis_line (h : s.Fits p) :
    p.cpuMillis s.line = .ok (s.cpuMillis p.ticksPerSecond) := by
  have hticks := h.ticks
  have hadd : addChecked s.userTicks s.systemTicks = .ok (s.userTicks + s.systemTicks) :=
    addChecked_of_lt (by omega)
  have hsum : (s.userTicks + s.systemTicks).toNat = s.userTicks.toNat + s.systemTicks.toNat :=
    toNat_of_addChecked hadd
  have hmul : mulChecked (s.userTicks + s.systemTicks) 1000 =
      .ok ((s.userTicks + s.systemTicks) * 1000) := by
    rw [mulChecked, if_pos]
    rw [hsum]
    exact hticks
  have hscaled := toNat_of_mulChecked hmul
  rw [Procfs.cpuMillis, show s.line.userTicks = s.userTicks from rfl,
    show s.line.systemTicks = s.systemTicks from rfl, hadd]
  simp only [bind, Except.bind, hmul, pure, Except.pure, Except.ok.injEq]
  rw [cpuMillis, ← UInt64.toNat_inj, UInt64.toNat_div, hscaled, hsum, UInt64.toNat_ofNat',
    Nat.mod_eq_of_lt ((Nat.div_le_self _ _).trans_lt hticks)]
  rfl

theorem exists_times (h : s.Fits p) (now : Timestamp) :
    ∃ r, p.times now s.line = .ok r := by
  unfold Procfs.times
  split
  · exact ⟨_, rfl⟩
  · next boot hboot =>
    have hadd : addChecked boot (s.line.startTicks / p.ticksPerSecond) =
        .ok (boot + s.line.startTicks / p.ticksPerSecond) := by
      apply addChecked_of_lt
      rw [UInt64.toNat_div]
      exact h.start boot hboot
    rw [hadd]
    exact ⟨_, rfl⟩

end Status

/-- Processes under different ids, none of which is 0. -/
structure Population (p : Procfs) (rows : List Status) : Prop where
  nodup : (rows.map (·.pid)).Nodup
  pos : ∀ s ∈ rows, 0 < s.pid
  fits : ∀ s ∈ rows, s.Fits p

/-- Each of some processes has a directory under its id with nothing but its status line, and
every other name beside these directories is no id. -/
structure Fixture (p : Procfs) (t : FileTree) (rows : List Status) : Prop where
  ids : ∃ names others, t.list p.root = .ok names ∧
    names.Perm (rows.map (fun s => toString s.pid.toNat) ++ others) ∧
    ∀ n ∈ others, Text.unsigned32? n.toList = none
  alone : ∀ s ∈ rows, t.list (p.directory s.pid) = .ok ["stat"]
  line : ∀ s ∈ rows, t.readFile (p.file s.pid "stat") = .ok (String.ofList s.text).toUTF8

namespace Fixture

/-! ## Paths -/

theorem toList_id (pid : Pid) : (toString pid.toNat).toList = Nat.toDigits 10 pid.toNat := by
  rw [Nat.toString_eq_repr, Nat.toList_repr]

theorem unsigned32?_id (pid : Pid) : Text.unsigned32? (toString pid.toNat).toList = some pid := by
  rw [toList_id, Text.unsigned32?_toDigits]

theorem id_injective : Function.Injective fun pid : Pid => toString pid.toNat := by
  intro a b hname
  have hread := unsigned32?_id a
  rw [show toString a.toNat = toString b.toNat from hname, unsigned32?_id] at hread
  exact (Option.some.inj hread).symm

theorem not_mem_id {c : Char} (hc : Text.isDigit c = false) (pid : Pid) :
    c ∉ (toString pid.toNat).toList := by
  intro hmem
  rw [toList_id] at hmem
  rw [Text.isDigit_of_mem_toDigits hmem] at hc
  cases hc

theorem plain_id (pid : Pid) : Plain (toString pid.toNat).toList := by
  have hdot (r : List Char) : (toString pid.toNat).toList ≠ '.' :: r := by
    intro h
    have hmem : '.' ∈ (toString pid.toNat).toList := h ▸ List.mem_cons_self
    exact not_mem_id rfl pid hmem
  refine ⟨?_, hdot [], hdot ['.']⟩
  rw [toList_id]
  exact Nat.toDigits_ne_nil

theorem toList_below (dir name : String) :
    (Procfs.below dir name).toList = Path.join dir.toList name.toList := String.toList_ofList

section Unlisted

variable {t : FileTree} {dir name : String} {names : List String} (h : t.list dir = .ok names)
  (hname : name ∉ names) (hplain : Plain name.toList) (hslash : '/' ∉ name.toList)
  (l : Location) (n : Node)

include h hname hplain hslash

theorem below_unlisted : t.resolve true (Procfs.below dir name) ≠ .ok (.found l n) := by
  have hpath := toList_below dir name
  refine FileTree.resolve_unlisted h hname hplain hslash [] ?_ (by rw [hpath]) l n
  rw [hpath, List.append_nil]

theorem below_below_unlisted {sub : String} (hsub : '/' ∉ sub.toList) :
    t.resolve true (Procfs.below (Procfs.below dir name) sub) ≠ .ok (.found l n) := by
  obtain ⟨hpieces, hstart⟩ := Path.pieces_join_below dir.toList hplain.1 hslash hsub
  have hpath := toList_below (Procfs.below dir name) sub
  rw [toList_below dir name] at hpath
  refine FileTree.resolve_unlisted h hname hplain hslash [sub.toList] ?_ ?_ l n
  · rw [hpath, hpieces]
  · rw [hpath, hstart]

end Unlisted

section Read

variable {p : Procfs} {t : FileTree} {rows : List Status} (h : Fixture p t rows)

include h

/-! ## Processes that are not there -/

section Gone

variable {pid : Pid} (hpid : pid ∉ rows.map (·.pid))

include hpid

theorem exists_unlisted : ∃ names, t.list p.root = .ok names ∧ toString pid.toNat ∉ names := by
  obtain ⟨names, others, hlist, hperm, hothers⟩ := h.ids
  refine ⟨names, hlist, fun hmem => ?_⟩
  rcases List.mem_append.mp (hperm.mem_iff.mp hmem) with hmem | hmem
  · obtain ⟨s, hs, hname⟩ := List.mem_map.mp hmem
    exact hpid (id_injective hname ▸ List.mem_map_of_mem hs)
  · have hnone := hothers _ hmem
    rw [unsigned32?_id] at hnone
    cases hnone

theorem pathExists_gone : t.pathExists (p.directory pid) = false := by
  obtain ⟨names, hlist, hname⟩ := exists_unlisted h hpid
  exact FileTree.pathExists_of_unresolved (below_unlisted hlist hname (plain_id pid)
    (not_mem_id rfl pid))

theorem statLine?_gone : p.statLine? t pid = none := by
  obtain ⟨names, hlist, hname⟩ := exists_unlisted h hpid
  have hnone (l : Location) (n : Node) :
      t.resolve true (p.file pid "stat") ≠ .ok (.found l n) :=
    below_below_unlisted hlist hname (plain_id pid) (not_mem_id rfl pid) l n (by decide)
  obtain ⟨e, he⟩ := FileTree.readFile_of_unresolved hnone
  rw [Procfs.statLine?, Procfs.readText?, he]
  rfl

theorem read_gone (now : Timestamp) : p.read t now pid = .ok (.missing pid) := by
  rw [Procfs.read, statLine?_gone h hpid]
  split <;> rfl

theorem children_gone : p.children t pid = [] := by
  rw [Procfs.children, pathExists_gone h hpid]
  simp

end Gone

/-! ## Processes that are there -/

section Row

variable {s : Status} (hs : s ∈ rows)

include hs

theorem statLine?_row : p.statLine? t s.pid = some s.line := by
  rw [Procfs.statLine?, Procfs.readText?, h.line s hs]
  dsimp only
  rw [Text.decodeUtf8?_toUTF8, Option.map_some, Option.bind_some, String.toList_ofList]
  exact StatLine.parse?_text s

theorem unreadable (name : String) (hname : name ≠ "stat") (hplain : Plain name.toList)
    (hslash : '/' ∉ name.toList) : ∃ e, t.readFile (p.file s.pid name) = .error e :=
  FileTree.readFile_of_unresolved
    (below_unlisted (h.alone s hs) (by simpa using hname) hplain hslash)

theorem read_row (hpos : 0 < s.pid) (hfits : s.Fits p) (now : Timestamp) :
    ∃ o, p.read t now s.pid = .ok o ∧ o.info.outline = s.outline ∧
      o.cpuMillis = some (s.cpuMillis p.ticksPerSecond) := by
  obtain ⟨e, hcomm⟩ := unreadable h hs "comm" (by decide) ⟨by decide, by decide, by decide⟩
    (by decide)
  obtain ⟨⟨startedAt, uptime⟩, htimes⟩ := Status.exists_times hfits now
  have hname : p.name t s.pid s.line = String.ofList s.name := by
    rw [Procfs.name, Procfs.readText?, hcomm]
    rfl
  rw [Procfs.read, if_neg (UInt32.pos_iff_ne_zero.mp hpos), statLine?_row h hs]
  simp only [Status.cpuMillis_line hfits, htimes, bind, Except.bind, pure, Except.pure]
  refine ⟨_, rfl, ?_, rfl⟩
  rw [Snapshot.outline, Status.outline, hname]
  rfl

theorem childrenFromTasks?_row : p.childrenFromTasks? t s.pid = none := by
  have hname : "task" ∉ ["stat"] := by decide
  obtain ⟨e, htask⟩ := FileTree.list_of_unresolved (below_unlisted (h.alone s hs) hname
    ⟨by decide, by decide, by decide⟩ (by decide))
  unfold Procfs.childrenFromTasks?
  dsimp only
  rw [htask]

theorem children_row (hpos : 0 < s.pid) : p.children t s.pid = p.childrenFromScan t s.pid := by
  have hexists := FileTree.pathExists_of_list (h.alone s hs)
  have hzero : s.pid ≠ 0 := UInt32.pos_iff_ne_zero.mp hpos
  rw [Procfs.children, hexists, childrenFromTasks?_row h hs]
  simp [hzero]

end Row

/-! ## The scan -/

theorem candidates_perm {names : List String} (hlist : t.list p.root = .ok names) :
    (names.filterMap fun n => Text.unsigned32? n.toList).Perm (rows.map (·.pid)) := by
  obtain ⟨names', others, hlist', hperm, hothers⟩ := h.ids
  rw [hlist] at hlist'
  cases hlist'
  have hnone : others.filterMap (fun n => Text.unsigned32? n.toList) = [] :=
    List.filterMap_eq_nil_iff.mpr hothers
  have hread : (rows.map fun s => toString s.pid.toNat).filterMap
      (fun n => Text.unsigned32? n.toList) = rows.map (·.pid) := by
    rw [List.filterMap_map, ← List.filterMap_eq_map]
    refine congrArg (List.filterMap · rows) (funext fun s => ?_)
    rw [Function.comp_apply, unsigned32?_id]
    rfl
  have hcandidates := hperm.filterMap fun n => Text.unsigned32? n.toList
  rwa [List.filterMap_append, hnone, hread, List.append_nil] at hcandidates

theorem mem_scan (pid c : Pid) :
    c ∈ p.childrenFromScan t pid ↔ ∃ s ∈ rows, s.pid = c ∧ s.parent = pid := by
  rw [Procfs.mem_childrenFromScan_iff]
  constructor
  · rintro ⟨names, n, line, hlist, hn, hc, hline, hparent⟩
    have hmem := (candidates_perm h hlist).mem_iff.mp (List.mem_filterMap.mpr ⟨n, hn, hc⟩)
    obtain ⟨s, hs, rfl⟩ := List.mem_map.mp hmem
    rw [statLine?_row h hs] at hline
    cases hline
    exact ⟨s, hs, rfl, hparent⟩
  · rintro ⟨s, hs, rfl, hparent⟩
    obtain ⟨names, -, hlist, -⟩ := h.ids
    have hmem := (candidates_perm h hlist).mem_iff.mpr (List.mem_map_of_mem hs)
    obtain ⟨n, hn, hc⟩ := List.mem_filterMap.mp hmem
    exact ⟨names, n, s.line, hlist, hn, hc, statLine?_row h hs, hparent⟩

theorem scan_ascending (hnodup : (rows.map (·.pid)).Nodup) (pid : Pid) :
    (p.childrenFromScan t pid).Pairwise (· < ·) := by
  have hdistinct : (p.childrenFromScan t pid).Nodup := by
    obtain ⟨names, -, hlist, -⟩ := h.ids
    have hcandidates := (candidates_perm h hlist).nodup_iff.mpr hnodup
    rw [Procfs.childrenFromScan, hlist]
    exact (List.mergeSort_perm _ _).nodup_iff.mpr (hcandidates.filter _)
  refine ((p.childrenFromScan_ascending t pid).and hdistinct).imp ?_
  rintro a b ⟨hle, hne⟩
  exact UInt32.lt_of_le_of_ne hle hne

end Read

end Fixture

end Overseer
