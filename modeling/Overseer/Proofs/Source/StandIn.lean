import Overseer.Proofs.Source.Building

/-! A table filled with the processes of a directory stands in for it: whatever a monitor is asked
for, it gives the same answers over both (`table_stands_in`). -/

namespace Overseer

open Monitor (noProcesses Mirrors Call Answer answers)

/-- What a table keeps of a process. -/
def Status.entry (s : Status) (ticksPerSecond : UInt64) : Observation where
  info := { s.outline with state := .running, threads := 1 }
  cpuMillis := some (s.cpuMillis ticksPerSecond)

namespace Table

/-- The table of some processes, put in one after another. -/
def filled (ticksPerSecond : UInt64) (rows : List Status) : Table :=
  rows.foldl (fun t s =>
    t.insert s.pid s.parent (String.ofList s.name) (s.cpuMillis ticksPerSecond)) noProcesses

variable (ticks : UInt64)

theorem processes_filled_append (rows : List Status) (s : Status) :
    (filled ticks (rows ++ [s])).processes =
      (filled ticks rows).processes.insert s.pid (s.entry ticks) := by
  rw [filled, List.foldl_append]
  rfl

theorem listed_filled (rows : List Status) (pid : Pid) :
    (filled ticks rows).listed[pid]? = none := by
  have hlisted : (filled ticks rows).listed = noProcesses.listed := by
    unfold filled
    generalize noProcesses = t
    induction rows generalizing t with
    | nil => rfl
    | cons s rows ih => exact ih _
  rw [hlisted]
  exact Std.TreeMap.getElem?_emptyc

/-- Under different ids, nothing that is put in replaces anything. -/
theorem getElem?_filled {rows : List Status} (hnodup : (rows.map (·.pid)).Nodup) (pid : Pid)
    (o : Observation) :
    (filled ticks rows).processes[pid]? = some o ↔ ∃ s ∈ rows, s.pid = pid ∧ s.entry ticks = o := by
  induction rows using List.reverseRecOn with
  | nil =>
    have hnone : (filled ticks []).processes[pid]? = none := Std.TreeMap.getElem?_emptyc
    simp [hnone]
  | append_singleton rows s ih =>
    rw [List.map_append, List.nodup_append] at hnodup
    obtain ⟨hinit, -, hapart⟩ := hnodup
    have hnew : ∀ r ∈ rows, r.pid ≠ s.pid := fun r hr =>
      hapart _ (List.mem_map_of_mem hr) _ (by simp)
    rw [processes_filled_append, Std.TreeMap.getElem?_insert]
    by_cases hpid : s.pid = pid
    · rw [if_pos (Std.LawfulEqCmp.compare_eq_iff_eq.mpr hpid)]
      constructor
      · intro ho
        exact ⟨s, by simp, hpid, Option.some.inj ho⟩
      · rintro ⟨r, hr, hrpid, rfl⟩
        rcases List.mem_append.mp hr with hr | hr
        · exact absurd (hrpid.trans hpid.symm) (hnew r hr)
        · rw [List.mem_singleton.mp hr]
    · rw [if_neg (mt Std.LawfulEqCmp.compare_eq_iff_eq.mp hpid), ih hinit]
      constructor
      · rintro ⟨r, hr, hrpid, ho⟩
        exact ⟨r, List.mem_append_left _ hr, hrpid, ho⟩
      · rintro ⟨r, hr, hrpid, ho⟩
        rcases List.mem_append.mp hr with hr | hr
        · exact ⟨r, hr, hrpid, ho⟩
        · rw [List.mem_singleton.mp hr] at hrpid
          exact absurd hrpid hpid

section Filled

variable {rows : List Status} (hnodup : (rows.map (·.pid)).Nodup)

include hnodup

theorem read_filled_row {s : Status} (hs : s ∈ rows) :
    (filled ticks rows).read s.pid = s.entry ticks := by
  rw [read, (getElem?_filled ticks hnodup s.pid (s.entry ticks)).mpr ⟨s, hs, rfl, rfl⟩]
  rfl

theorem getElem?_filled_gone {pid : Pid} (hpid : pid ∉ rows.map (·.pid)) :
    (filled ticks rows).processes[pid]? = none := by
  rw [Option.eq_none_iff_forall_ne_some]
  intro o ho
  obtain ⟨s, hs, rfl, -⟩ := (getElem?_filled ticks hnodup pid o).mp ho
  exact hpid (List.mem_map_of_mem hs)

theorem read_filled_gone {pid : Pid} (hpid : pid ∉ rows.map (·.pid)) :
    (filled ticks rows).read pid = .missing pid := by
  rw [read, getElem?_filled_gone ticks hnodup hpid]
  rfl

theorem children_filled_gone {pid : Pid} (hpid : pid ∉ rows.map (·.pid)) :
    (filled ticks rows).children pid = [] := by
  have hcontains : (filled ticks rows).processes.contains pid = false := by
    rw [Std.TreeMap.contains_eq_isSome_getElem?, getElem?_filled_gone ticks hnodup hpid]
    rfl
  rw [children, listed_filled, hcontains]
  simp

theorem mem_children_filled {s : Status} (hs : s ∈ rows) (c : Pid) :
    c ∈ (filled ticks rows).children s.pid ↔
      (∃ r ∈ rows, r.pid = c ∧ r.parent = s.pid) ∧ c ≠ s.pid := by
  have hcontains : (filled ticks rows).processes.contains s.pid = true := by
    rw [Std.TreeMap.contains_eq_isSome_getElem?,
      (getElem?_filled ticks hnodup s.pid (s.entry ticks)).mpr ⟨s, hs, rfl, rfl⟩]
    rfl
  rw [children, listed_filled, hcontains]
  dsimp only
  rw [if_pos rfl, List.mem_map]
  constructor
  · rintro ⟨⟨pid, o⟩, hentry, rfl⟩
    obtain ⟨hentry, hkeep⟩ := List.mem_filter.mp hentry
    obtain ⟨r, hr, -, rfl⟩ := (getElem?_filled ticks hnodup pid o).mp
      (Std.TreeMap.mem_toList_iff_getElem?_eq_some.mp hentry)
    obtain ⟨hparent, hself⟩ := Bool.and_eq_true_iff.mp hkeep
    exact ⟨⟨r, hr, rfl, beq_iff_eq.mp hparent⟩, bne_iff_ne.mp hself⟩
  · rintro ⟨⟨r, hr, rfl, hparent⟩, hself⟩
    refine ⟨(r.pid, r.entry ticks), List.mem_filter.mpr ⟨?_, ?_⟩, rfl⟩
    · exact Std.TreeMap.mem_toList_iff_getElem?_eq_some.mpr
        ((getElem?_filled ticks hnodup r.pid (r.entry ticks)).mpr ⟨r, hr, rfl, rfl⟩)
    · exact Bool.and_eq_true_iff.mpr ⟨beq_iff_eq.mpr hparent, bne_iff_ne.mpr hself⟩

end Filled

/-- Children that follow from parent links stand in ascending order. -/
theorem children_ascending (t : Table) {pid : Pid} (h : t.listed[pid]? = none) :
    (t.children pid).Pairwise (· < ·) := by
  rw [children, h]
  dsimp only
  split
  · have hkeys : t.processes.toList.Pairwise (·.2.info.pid < ·.2.info.pid) := by
      refine Std.TreeMap.ordered_keys_toList.imp_of_mem ?_
      rintro ⟨a, o⟩ ⟨b, o'⟩ ha hb hlt
      rw [t.keyed a o (Std.TreeMap.mem_toList_iff_getElem?_eq_some.mp ha),
        t.keyed b o' (Std.TreeMap.mem_toList_iff_getElem?_eq_some.mp hb)]
      exact Std.compare_eq_lt.mp hlt
    exact List.pairwise_map.mpr (hkeys.filter _)
  · exact List.Pairwise.nil

end Table

/-! ## The two sources -/

section StandIn

variable {p : Procfs} {t : FileTree} {rows : List Status} (h : Fixture p t rows)
  (hrows : Population p rows)

include h hrows

/-- The directory may name a process its own child, the table does not. -/
theorem children_apart (pid : Pid) :
    (p.children t pid).filter (· ≠ pid) =
      ((Table.filled p.ticksPerSecond rows).children pid).filter (· ≠ pid) := by
  by_cases hpid : pid ∈ rows.map (·.pid)
  · obtain ⟨s, hs, rfl⟩ := List.mem_map.mp hpid
    refine List.Pairwise.eq_of_mem_iff (r := (· < ·)) ?_ ?_ fun c => ?_
    · rw [h.children_row hs (hrows.pos s hs)]
      exact (h.scan_ascending hrows.nodup s.pid).filter _
    · exact (Table.children_ascending _ (Table.listed_filled _ rows s.pid)).filter _
    -- both ascend, so it is enough that they have the same members
    · rw [List.mem_filter, List.mem_filter, h.children_row hs (hrows.pos s hs), h.mem_scan,
        Table.mem_children_filled _ hrows.nodup hs, decide_eq_true_eq]
      tauto
  · rw [h.children_gone hpid, Table.children_filled_gone _ hrows.nodup hpid]

theorem sources_mirrored (now : Timestamp) :
    Mirrors (p.source t now) (Table.filled p.ticksPerSecond rows).source where
  read pid := by
    by_cases hpid : pid ∈ rows.map (·.pid)
    · obtain ⟨s, hs, rfl⟩ := List.mem_map.mp hpid
      obtain ⟨o, ho, hinfo, hcpu⟩ := h.read_row hs (hrows.pos s hs) (hrows.fits s hs) now
      refine ⟨o, s.entry p.ticksPerSecond, ho, ?_, hinfo, hcpu⟩
      exact congrArg Except.ok (Table.read_filled_row _ hrows.nodup hs)
    · refine ⟨.missing pid, .missing pid, h.read_gone hpid now, ?_, rfl, rfl⟩
      exact congrArg Except.ok (Table.read_filled_gone _ hrows.nodup hpid)
  children := children_apart h hrows

/-- Whatever is asked of a monitor, and however often, it gives the same answers over the
directory and over the table, but for what only the directory tells, and it keeps the same
samples after each. -/
theorem table_stands_in (samples : CpuSamples) (calls : List Call) :
    ∃ xs ys, answers (p.source t) samples calls = .ok xs ∧
      answers (fun _ => (Table.filled p.ticksPerSecond rows).source) samples calls = .ok ys ∧
      xs.map (Prod.map Answer.outline id) = ys.map (Prod.map Answer.outline id) :=
  Monitor.answers_mirrored (fun now => sources_mirrored h hrows now) samples calls

end StandIn

/-- A directory on a system with a hundred ticks a second and pages of 4096 bytes. -/
def Procfs.usual (root : String) (bootSeconds : Option UInt64) : Procfs where
  root
  ticksPerSecond := defaultTicksPerSecond
  pageBytes := defaultPageBytes
  bootSeconds
  ticks_pos := by decide

/-- A process that has run for 2.57 seconds, the first of them a second after the start. -/
def Status.running (pid parent : Pid) (name : String) : Status where
  pid
  name := name.toList
  state := ⟨'R', by decide⟩
  parent
  beforeTicks := .replicate 9 (.natural 0)
  userTicks := 250
  systemTicks := 7
  afterTicks := .replicate 4 (.natural 0)
  threads := 1
  timer := .natural 0
  startTicks := 100
  virtualBytes := 4096
  residentPages := -1
  more := []
  ending := ⟨['\n'], fun _ hc => List.mem_singleton.mp hc ▸ rfl⟩

theorem Status.running_fits (pid parent : Pid) (name root : String) :
    (running pid parent name).Fits (.usual root (some 1000)) where
  ticks := show (250 + 7) * 1000 < UInt64.size by decide
  start b hb := by
    obtain rfl := Option.some.inj hb
    exact show 1000 + 100 / 100 < UInt64.size by decide

/-- Two processes that are each other's parents, one that is its own, and one whose parent is not
there. The names look like ends of names. -/
def entangled : List Status :=
  [.running 1 2 "init", .running 2 1 "a) R 9 (", .running 3 3 ") (", .running 4 9 "lost\n"]

theorem entangled_population : Population (.usual "/proc" (some 1000)) entangled where
  nodup := by decide
  pos := by simp [entangled, Status.running]
  fits := by
    simp only [entangled, List.forall_mem_cons]
    exact ⟨Status.running_fits .., Status.running_fits .., Status.running_fits ..,
      Status.running_fits .., by simp⟩

theorem table_stands_in_entangled :
    Fixture (.usual "/proc" (some 1000)) (Fixture.build entangled) entangled ∧
      Population (.usual "/proc" (some 1000)) entangled ∧
      ∃ xs ys, answers (Procfs.source (.usual "/proc" (some 1000)) (Fixture.build entangled)) ∅
          [⟨⟨2000, 0⟩, fun _ => 0, .tree 1⟩, ⟨⟨2001, 0⟩, fun _ => 1000000000, .family 3 true⟩] =
            .ok xs ∧
        answers (fun _ => (Table.filled 100 entangled).source) ∅
          [⟨⟨2000, 0⟩, fun _ => 0, .tree 1⟩, ⟨⟨2001, 0⟩, fun _ => 1000000000, .family 3 true⟩] =
            .ok ys ∧
        xs.map (Prod.map Answer.outline id) = ys.map (Prod.map Answer.outline id) :=
  ⟨Fixture.build_fixture entangled_population.nodup rfl, entangled_population,
    table_stands_in (Fixture.build_fixture entangled_population.nodup rfl) entangled_population ∅ _⟩

end Overseer
