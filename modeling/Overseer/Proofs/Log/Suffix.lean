import Overseer.Proofs.Log.Contents
import Overseer.Proofs.Log.Session

/-! A log keeps an unbroken suffix of all that was written to it. `Live.write_accepts` is one
write, `Live.writeAll_groups` a run of them; `log_keeps_suffix` starts from the open. -/

namespace Overseer.Log

namespace RotatingLog

/-- The files that a write throws away: one that calls for a rotation drops the file in the last
slot if another takes its place, and the active file if there are no archives. -/
def discarded (log : RotatingLog) (t : FileTree) (record : ByteArray) : List (List UInt8) :=
  if log.isFullFor record.size then
    match log.maxFiles with
    | 0 => (fileAt t (slotPath log.path 0)).toList
    | n + 1 =>
      if t.pathExists (slotPath log.path n) then (fileAt t (slotPath log.path (n + 1))).toList
      else []
  else []

/-- The files thrown away in a run of writes, in turn. -/
def discards (log : RotatingLog) (t : FileTree) : List ByteArray → List (List UInt8)
  | [] => []
  | r :: rest => discarded log t r ++ discards (log.write t r).log (log.write t r).tree rest

/-- Whether a write makes room: by a shift of the archives or, where there are none, by a cut of
the active file. -/
def makesRoom (log : RotatingLog) (t : FileTree) (record : ByteArray) : Bool :=
  (log.write t record).rotated || (log.isFullFor record.size && log.maxFiles == 0)

/-- How often a run of writes makes room. -/
def rotations (log : RotatingLog) (t : FileTree) : List ByteArray → Nat
  | [] => 0
  | r :: rest =>
    (log.makesRoom t r).toNat + rotations (log.write t r).log (log.write t r).tree rest

end RotatingLog

open RotatingLog (writeAll discarded discards rotations)

/-- How a record gets into files listed oldest first: at the end of the last one, or as a new one
after some of the oldest are gone. -/
inductive Accepts (record : List UInt8) :
    List (List UInt8) → List (List UInt8) → List (List UInt8) → Prop
  | extend (older : List (List UInt8)) (active : List UInt8) :
      Accepts record (older ++ [active]) [] (older ++ [active ++ record])
  | fresh (gone kept : List (List UInt8)) :
      Accepts record (gone ++ kept) gone (kept ++ [record])

/-- Where files are made of whole parts, they still are after another part has been added. -/
theorem Accepts.groups {record : List UInt8} {files gone files' before : List (List UInt8)}
    (h : Accepts record files gone files') {parts : List (List (List UInt8))}
    (hparts : parts.map List.flatten = before ++ files) :
    ∃ parts' : List (List (List UInt8)), parts'.map List.flatten = before ++ gone ++ files' ∧
      parts'.flatten = parts.flatten ++ [record] := by
  cases h with
  | extend older active =>
    rw [← List.append_assoc] at hparts
    obtain ⟨ps, last, rfl, hps, hlast⟩ := List.map_eq_append_iff.mp hparts
    obtain ⟨g, rfl, hg⟩ : ∃ g, last = [g] ∧ g.flatten = active := by
      cases last with
      | nil => simp at hlast
      | cons g rest =>
        cases rest with
        | nil => exact ⟨g, rfl, by simpa using hlast⟩
        | cons g' rest => simp at hlast
    refine ⟨ps ++ [g ++ [record]], ?_, ?_⟩
    · simp [hps, hg]
    · simp
  | fresh gone kept =>
    refine ⟨parts ++ [[record]], ?_, ?_⟩
    · simp [hparts]
    · simp

namespace Shelf

variable {s : Shelf} {t : FileTree} {log : RotatingLog} {record : ByteArray}

/-- With a record at the end of the active file, the other slots hold what they held. -/
theorem Live.stored_append (h : s.Live t log) {t' : FileTree} {id : Nat}
    (hx : s.held log.path t 0 = some (.file id))
    (hheld : s.held log.path t' = s.held log.path t)
    (hcontents : t'.contents = (t.append id record).contents) :
    s.stored log.path t' = set (s.stored log.path t) 0
      (some ((t.bytes id).data.toList ++ record.data.toList)) := by
  rw [stored_eq_view, stored_eq_view, h.view_append hx hheld hcontents]
  funext i
  rw [map_set]
  rfl

theorem Live.stored_cut (h : s.Live t log) {t' : FileTree} {id : Nat}
    (hx : s.held log.path t 0 = some (.file id))
    (hheld : s.held log.path t' = s.held log.path t)
    (hcontents : t'.contents = ((t.truncate id).append id record).contents) :
    s.stored log.path t' = set (s.stored log.path t) 0 (some record.data.toList) := by
  rw [stored_eq_view, stored_eq_view, h.view_cut hx hheld hcontents]
  funext i
  rw [map_set]
  rfl

theorem Holds.stored_shifted {base : String} {n : Nat} (h : s.Holds t base n) {t' : FileTree}
    (hheld : s.held base t' = set (lifted (s.held base t) n) 0 (some (.file t.contents.size)))
    (hcontents : t'.contents = t.contents.push record) :
    s.stored base t' = set (lifted (s.stored base t) n) 0 (some record.data.toList) := by
  have hlifted : (fun k => (lifted (s.view base t) n k).map (·.getD [])) =
      lifted (s.stored base t) n := by
    funext k
    rw [map_lifted, stored_eq_view]
  rw [stored_eq_view, h.view_shifted hheld hcontents]
  funext i
  rw [map_set, hlifted]
  rfl

theorem OnlyFiles.lifted {base : String} {n : Nat} (h : s.OnlyFiles base n t) {t' : FileTree}
    {id : Nat}
    (hheld : s.held base t' = set (lifted (s.held base t) n) 0 (some (.file id))) :
    s.OnlyFiles base n t' := by
  intro i hi x hx
  rw [hheld] at hx
  cases i with
  | zero =>
    rw [set_self] at hx
    exact ⟨id, (Option.some.inj hx).symm⟩
  | succ i =>
    rw [set_ne _ _ _ (by omega)] at hx
    simp only [Shelf.lifted] at hx
    by_cases h₁ : i + 1 < n
    · rw [if_pos h₁] at hx
      exact h i (by omega) x hx
    · rw [if_neg h₁, if_pos (by omega)] at hx
      rcases Option.or_eq_some_iff.mp hx with hx | ⟨-, hx⟩
      · exact h i (by omega) x hx
      · exact h n (Nat.le_refl n) x hx

theorem Live.discarded_eq (h : s.Live t log) (honly : s.OnlyFiles log.path log.maxFiles t)
    (hfull : log.isFullFor record.size = true) {n : Nat} (hn : log.maxFiles = n + 1) :
    discarded log t record =
      if (s.stored log.path t n).isSome then (s.stored log.path t (n + 1)).toList else [] := by
  rw [discarded, if_pos hfull, hn]
  simp only [h.holds.pathExists_slot (show n ≤ log.maxFiles by omega),
    h.holds.fileAt_slot honly (show n + 1 ≤ log.maxFiles by omega), stored, Option.isSome_map]

/-- A write that fails to make room throws nothing away. -/
theorem Live.discarded_stuck (h : s.Live t log) (honly : s.OnlyFiles log.path log.maxFiles t)
    (hfull : log.isFullFor record.size = true) (hne : log.maxFiles ≠ 0)
    (hlast : ∀ i, s.held log.path t log.maxFiles ≠ some (.file i)) :
    discarded log t record = [] := by
  obtain ⟨n, hn⟩ := Nat.exists_eq_succ_of_ne_zero hne
  have hnone : s.stored log.path t (n + 1) = none := by
    rw [← Nat.succ_eq_add_one, ← hn, stored]
    cases hy : s.held log.path t log.maxFiles with
    | none => rfl
    | some y =>
      obtain ⟨i, rfl⟩ := honly _ (Nat.le_refl _) y hy
      exact absurd hy (hlast i)
  rw [h.discarded_eq honly hfull hn, hnone]
  simp

/-- What a write makes of the files. -/
theorem Live.write_accepts (h : s.Live t log) (honly : s.OnlyFiles log.path log.maxFiles t)
    (record : ByteArray) :
    s.OnlyFiles log.path log.maxFiles (log.write t record).tree ∧
      Accepts record.data.toList (logFiles t log.path log.maxFiles) (discarded log t record)
        (logFiles (log.write t record).tree log.path log.maxFiles) := by
  obtain ⟨hwrote, hlive, -⟩ := h.write_wrote record
  have hholds := hlive.holds
  rw [RotatingLog.write_path, RotatingLog.write_maxFiles] at hholds
  rw [h.holds.logFiles_eq honly]
  cases hwrote with
  | added id hroom _ _ hx hheld hcontents =>
    have honly' := honly.of_held_eq hheld
    refine ⟨honly', ?_⟩
    have hgone : discarded log t record = [] := by simp [discarded, hroom]
    rw [hholds.logFiles_eq honly', h.stored_append hx hheld hcontents,
      oldestFirst_set_zero, oldestFirst_active (stored_of_file hx), hgone]
    exact .extend _ _
  | cut id hfull hn _ _ hx hheld hcontents =>
    have honly' := honly.of_held_eq hheld
    refine ⟨honly', ?_⟩
    have hgone : discarded log t record = [(t.bytes id).data.toList] := by
      rw [discarded, if_pos hfull, hn]
      simp only [h.holds.fileAt_slot honly (Nat.zero_le _), stored_of_file hx, Option.toList_some]
    rw [hholds.logFiles_eq honly', h.stored_cut hx hheld hcontents, hgone, hn, oldestFirst,
      oldestFirst, stored_of_file hx, set_self]
    exact .fresh [(t.bytes id).data.toList] []
  | shifted hfull hne _ _ hheld hcontents =>
    have honly' := honly.lifted hheld
    refine ⟨honly', ?_⟩
    obtain ⟨n, hn⟩ := Nat.exists_eq_succ_of_ne_zero hne
    have hfree : lifted (s.stored log.path t) (n + 1) 0 = none := rfl
    rw [hholds.logFiles_eq honly', h.holds.stored_shifted hheld hcontents,
      h.discarded_eq honly hfull hn, hn, oldestFirst_set_zero, set_of_eq hfree,
      ← oldestFirst_lifted]
    exact .fresh _ _
  | stuck id e hfull hne hlast _ _ hx hheld hcontents =>
    have honly' := honly.of_held_eq hheld
    refine ⟨honly', ?_⟩
    rw [hholds.logFiles_eq honly', h.stored_append hx hheld hcontents,
      oldestFirst_set_zero, oldestFirst_active (stored_of_file hx),
      h.discarded_stuck honly hfull hne hlast]
    exact .extend _ _

/-- A write that makes no room throws nothing away, and one that does throws one file away at
most. -/
theorem Live.length_discarded_le (h : s.Live t log)
    (honly : s.OnlyFiles log.path log.maxFiles t) (record : ByteArray) :
    (discarded log t record).length ≤ (log.makesRoom t record).toNat := by
  have hone : ∀ m : Option (List UInt8), m.toList.length ≤ 1 := by
    intro m
    cases m <;> simp
  cases (h.write_wrote record).1 with
  | added id hroom => simp [discarded, hroom]
  | cut id hfull hn =>
    have hroom : log.makesRoom t record = true := by simp [RotatingLog.makesRoom, hfull, hn]
    rw [hroom, discarded, if_pos hfull, hn]
    exact hone _
  | shifted hfull hne _ hrotated =>
    have hroom : log.makesRoom t record = true := by simp [RotatingLog.makesRoom, hrotated]
    obtain ⟨n, hn⟩ := Nat.exists_eq_succ_of_ne_zero hne
    rw [hroom, h.discarded_eq honly hfull hn]
    split
    · exact hone _
    · exact Nat.zero_le _
  | stuck id e hfull hne hlast =>
    rw [h.discarded_stuck honly hfull hne hlast]
    exact Nat.zero_le _

theorem Live.length_discards_le (h : s.Live t log)
    (honly : s.OnlyFiles log.path log.maxFiles t) (records : List ByteArray) :
    (discards log t records).length ≤ rotations log t records := by
  induction records generalizing t log with
  | nil => exact Nat.le_refl _
  | cons r rest ih =>
    have hfirst := h.length_discarded_le honly r
    have honly' := (h.write_accepts honly r).1
    rw [← log.write_path t r, ← log.write_maxFiles t r] at honly'
    have hrest := ih (h.write_wrote r).2.1 honly'
    rw [discards, rotations, List.length_append]
    omega

/-- A run of writes, with the parts that the files are made of. -/
theorem Live.writeAll_groups (h : s.Live t log) (honly : s.OnlyFiles log.path log.maxFiles t)
    (records : List ByteArray) {before : List (List UInt8)} {parts : List (List (List UInt8))}
    (hparts : parts.map List.flatten = before ++ logFiles t log.path log.maxFiles) :
    ∃ parts' : List (List (List UInt8)),
      parts'.map List.flatten = before ++ discards log t records ++
        logFiles (writeAll log t records).1 log.path log.maxFiles ∧
      parts'.flatten = parts.flatten ++ records.map (·.data.toList) := by
  induction records generalizing t log before parts with
  | nil => exact ⟨parts, by simpa [discards, writeAll] using hparts, by simp⟩
  | cons r rest ih =>
    obtain ⟨honly', haccepts⟩ := h.write_accepts honly r
    obtain ⟨parts₁, hparts₁, hflat₁⟩ := haccepts.groups hparts
    have hpath := log.write_path t r
    have hmax := log.write_maxFiles t r
    have hlive := (h.write_wrote r).2.1
    rw [← hpath, ← hmax] at honly' hparts₁
    obtain ⟨parts₂, hparts₂, hflat₂⟩ := ih hlive honly' hparts₁
    rw [hpath, hmax] at hparts₂
    refine ⟨parts₂, ?_, ?_⟩
    · rw [hparts₂, discards, writeAll, List.append_assoc before]
    · rw [hflat₂, hflat₁]
      simp

end Shelf

/-! ## From the open on -/

/-- Opening a log leaves its files as they are, and makes the active one if it is missing. -/
theorem Ready.opened {t t₀ : FileTree} {path : String} {maxBytes n : Nat} {log : RotatingLog}
    (h : Ready t path n) (hopen : RotatingLog.openAt t path maxBytes n = (t₀, .ok log)) :
    log.path = path ∧ log.maxFiles = n ∧
      ∃ s : Shelf, s.Live t₀ log ∧ s.OnlyFiles path n t₀ ∧
        (logFiles t₀ path n = logFiles t path n ∨
          logFiles t₀ path n = logFiles t path n ++ [[]]) := by
  obtain ⟨s, hholds, honly⟩ := h.holds (h.placed.getLast?_of_opened hopen)
  obtain ⟨hpath, hn, hlive, hmade⟩ := hholds.opened (honly 0 (Nat.zero_le n)) hopen
  refine ⟨hpath, hn, s, hlive, ?_⟩
  rcases hmade with rfl | ⟨hx, rfl⟩
  · exact ⟨honly, Or.inl rfl⟩
  · have hcreated := hholds.create (Nat.zero_le n) hholds.reached.fits
    have honly' : s.OnlyFiles path n (t.create (s.slot 0)).1 :=
      Shelf.OnlyFiles.create honly hholds hholds.reached.fits
    refine ⟨honly', Or.inr ?_⟩
    have hfree : s.stored path t 0 = none := by rw [Shelf.stored, hx]; rfl
    rw [hcreated.logFiles_eq honly', hholds.logFiles_eq honly,
      hholds.stored_create hholds.reached.fits, oldestFirst_set_zero, Shelf.set_of_eq hfree]
    rfl

/-- After any run of writes the files, with those thrown away before them, are made of whole
records and of whole files that were there at first. -/
theorem Ready.writeAll_groups {t t₀ : FileTree} {path : String} {maxBytes n : Nat}
    {log : RotatingLog} (h : Ready t path n)
    (hopen : RotatingLog.openAt t path maxBytes n = (t₀, .ok log)) (records : List ByteArray) :
    ∃ parts : List (List (List UInt8)),
      parts.map List.flatten =
        discards log t₀ records ++ logFiles (writeAll log t₀ records).1 path n ∧
      parts.flatten = logFiles t path n ++ records.map (·.data.toList) := by
  obtain ⟨hpath, hn, s, hlive, honly, hfiles⟩ := h.opened hopen
  -- Each file there at first is one part; a new active file has none.
  obtain ⟨parts, hparts, hflat⟩ : ∃ parts : List (List (List UInt8)),
      parts.map List.flatten = [] ++ logFiles t₀ path n ∧ parts.flatten = logFiles t path n := by
    have hsingle : ∀ files : List (List UInt8), (files.map fun f => [f]).map List.flatten = files ∧
        (files.map fun f => [f]).flatten = files := by
      intro files
      induction files with
      | nil => exact ⟨rfl, rfl⟩
      | cons f rest ih => exact ⟨by simpa using ih.1, by simpa using ih.2⟩
    rcases hfiles with hfiles | hfiles
    · exact ⟨_, by rw [hfiles, (hsingle _).1, List.nil_append], (hsingle _).2⟩
    · refine ⟨(logFiles t path n).map (fun f => [f]) ++ [[]], ?_, ?_⟩
      · rw [hfiles, List.map_append, (hsingle _).1]
        rfl
      · rw [List.flatten_append, (hsingle _).2]
        simp
  subst hpath hn
  obtain ⟨parts', hparts', hflat'⟩ := hlive.writeAll_groups honly records hparts
  rw [hflat] at hflat'
  exact ⟨parts', hparts', hflat'⟩

/-- After any run of writes the files of a log are what is left of all that was in them at first
and all records written, in order, once some whole files are gone from the front, at most one for
each rotation. Each of these files is made of whole records and of whole files that were there at
first. No file has a second name (a hard link) beside its slot. -/
theorem log_keeps_suffix {t t₀ : FileTree} {path : String} {maxBytes n : Nat} {log : RotatingLog}
    (h : Ready t path n) (hopen : RotatingLog.openAt t path maxBytes n = (t₀, .ok log))
    (records : List ByteArray) :
    (discards log t₀ records).flatten ++
          (logFiles (writeAll log t₀ records).1 path n).flatten =
        (logFiles t path n).flatten ++ (records.map (·.data.toList)).flatten ∧
      (discards log t₀ records).length ≤ rotations log t₀ records ∧
      ∃ parts : List (List (List UInt8)),
        parts.map List.flatten =
          discards log t₀ records ++ logFiles (writeAll log t₀ records).1 path n ∧
        parts.flatten = logFiles t path n ++ records.map (·.data.toList) := by
  obtain ⟨parts, hparts, hflat⟩ := h.writeAll_groups hopen records
  obtain ⟨rfl, rfl, s, hlive, honly, -⟩ := h.opened hopen
  refine ⟨?_, hlive.length_discards_le honly records, parts, hparts, hflat⟩
  calc
    _ = (parts.map List.flatten).flatten := by rw [hparts, List.flatten_append]
    _ = parts.flatten.flatten := List.flatten_flatten.symm
    _ = _ := by rw [hflat, List.flatten_append]

/-- A log whose first archive is missing and whose second is there. -/
def gapped : FileTree :=
  let t := (FileTree.empty.create ["work", "app.log"]).1.append 0 "old".toUTF8
  (t.create ["work", "app.2.log"]).1.append 1 "older".toUTF8

theorem gapped_ready : Ready gapped "app.log" 2 := by
  have hactive := (FileTree.sound_empty.create (d := ["work"]) (a := "app.log") rfl rfl).append 0
    "old".toUTF8
  have hboth := (hactive.create (d := ["work"]) (a := "app.2.log") rfl rfl).append 1
    "older".toUTF8
  refine Ready.of_name hboth (Shelf.reached_of_name hboth "app.log"
    ⟨by decide, by decide, by decide⟩ (by decide) (by decide) (by decide)) ?_
  intro i hi k hk
  match i, hi with
  | 0, _ => exact ⟨0, Option.some.inj (hk.symm.trans rfl)⟩
  | 1, _ =>
    have hnone : (none : Option Kind) = some k := hk
    cases hnone
  | 2, _ => exact ⟨1, Option.some.inj (hk.symm.trans rfl)⟩

theorem log_keeps_suffix_gapped :
    Ready gapped "app.log" 2 ∧
      ∃ t₀ log, RotatingLog.openAt gapped "app.log" 4 2 = (t₀, .ok log) ∧
        (discards log t₀ ["ab".toUTF8, "cdefg".toUTF8]).flatten ++
            (logFiles (writeAll log t₀ ["ab".toUTF8, "cdefg".toUTF8]).1 "app.log" 2).flatten =
          (logFiles gapped "app.log" 2).flatten ++
            (["ab".toUTF8, "cdefg".toUTF8].map (·.data.toList)).flatten := by
  obtain ⟨t₀, log, hopen⟩ := gapped_ready.exists_opened (by decide) 4 2
  exact ⟨gapped_ready, t₀, log, hopen, (log_keeps_suffix gapped_ready hopen _).1⟩

end Overseer.Log
