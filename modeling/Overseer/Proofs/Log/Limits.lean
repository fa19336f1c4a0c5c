import Overseer.Proofs.Log.Beside
import Overseer.Proofs.Log.Suffix

/-! A log used several times, each time with limits of its own. A use touches no archive above its
limit (`Tidy.use`), so that archives of earlier uses may be left there for good
(`archives_above_limit`); `lowered_limit_kept` is such a run. -/

namespace Overseer.Log

/-- One use of a log: what it is opened with and the records written to it. -/
structure Usage where
  maxBytes : Nat
  maxFiles : Nat
  records : List ByteArray

/-- The tree after a use. A log that does not open is not written to. -/
def Usage.run (path : String) (t : FileTree) (u : Usage) : FileTree :=
  match RotatingLog.openAt t path u.maxBytes u.maxFiles with
  | (t, .ok log) => (log.writeAll t u.records).1
  | (t, .error _) => t

namespace Shelf

variable {s : Shelf} {t t' : FileTree} {base : String} {n m : Nat}

/-! ## More slots than a log uses -/

theorem Holds.mono (h : s.Holds t base m) (hnm : n ≤ m) : s.Holds t base n where
  intact := h.intact
  reached := h.reached.mono fun _ _ hk _ => ⟨hk.1, fun i hi => hk.2 i (Nat.le_trans hi hnm)⟩
  noLink i hi := h.noLink i (Nat.le_trans hi hnm)

/-- A change confined to the slots up to `n` leaves those above as they are. -/
theorem Confined.get?_above (h : s.Confined base n t t') {i : Nat} (hi : n < i) :
    t'.root.get? (s.slot i) = t.root.get? (s.slot i) :=
  h.nodes _ (fun _ hj _ => s.not_slot_below (by omega)) (s.not_slot_above i)

theorem Confined.held_above (h : s.Confined base n t t') {i : Nat} (hi : n < i) :
    s.held base t' i = s.held base t i := by
  rw [held, held, h.get?_above hi]

/-- More slots can be moved after a change to some of them if they could before. -/
theorem Holds.widen (h : s.Holds t base m) (h' : s.Holds t' base n)
    (hconfined : s.Confined base n t t') (hnm : n ≤ m) : s.Holds t' base m := by
  apply h.change h'.intact hconfined.working
  · rintro l k ⟨hk, hl⟩
    exact ⟨(hconfined.kinds l fun i hi => hl i (Nat.le_trans hi hnm)).trans hk, hl⟩
  · intro i hi hfit target
    by_cases hin : i ≤ n
    · exact h'.noLink i hin hfit target
    · rw [Node.kindAt, hconfined.get?_above (Nat.lt_of_not_le hin)]
      exact h.noLink i hi hfit target

/-- All slots of a log, however many, are files or free, and its path leads through none. -/
structure Tidy (s : Shelf) (t : FileTree) (base : String) : Prop where
  holds : ∀ n, s.Holds t base n
  files : ∀ n, s.OnlyFiles base n t

/-- Slots above `n` have what they had, and the files there the bytes that they had. -/
structure KeptAbove (s : Shelf) (base : String) (n : Nat) (t t' : FileTree) : Prop where
  held : ∀ i > n, s.held base t' i = s.held base t i
  bytes : ∀ i > n, ∀ id, s.held base t i = some (.file id) → t'.bytes id = t.bytes id

namespace KeptAbove

theorem refl : s.KeptAbove base n t t := ⟨fun _ _ => rfl, fun _ _ _ _ => rfl⟩

theorem trans {t'' : FileTree} (h : s.KeptAbove base n t t') (h' : s.KeptAbove base n t' t'') :
    s.KeptAbove base n t t'' where
  held i hi := (h'.held i hi).trans (h.held i hi)
  bytes i hi id hx :=
    (h'.bytes i hi id ((h.held i hi).trans hx)).trans (h.bytes i hi id hx)

theorem sameAt (h : s.KeptAbove base n t t') (ht : s.Tidy t base) (ht' : s.Tidy t' base) {i : Nat}
    (hi : n < i) : SameAt t t' (slotPath base i) where
  target := (ht.holds i).resolve_congr (ht'.holds i) (Nat.le_refl i) (h.held i hi) false
  bytes l m hm r id hr := by
    obtain ⟨hx, -⟩ := (ht.holds i).held_of_found (Nat.le_refl i) hm
    obtain ⟨k, rfl⟩ := ht.files i i (Nat.le_refl i) m hx
    cases r with
    | nil =>
      cases hr
      exact h.bytes i hi _ hx
    | cons a r => cases hr

end KeptAbove

namespace Tidy

/-- A change confined to the slots up to `n` keeps all of them so if it does those. -/
theorem change (h : s.Tidy t base) (hholds : s.Holds t' base n) (honly : s.OnlyFiles base n t')
    (hconfined : s.Confined base n t t') : s.Tidy t' base where
  holds m := by
    have hwide := (h.holds (max n m)).widen hholds hconfined (Nat.le_max_left n m)
    exact hwide.mono (Nat.le_max_right n m)
  files m i hi x hx := by
    by_cases hin : i ≤ n
    · exact honly i hin x hx
    · rw [hconfined.held_above (Nat.lt_of_not_le hin)] at hx
      exact h.files m i hi x hx

variable {log : RotatingLog}

theorem write (h : s.Tidy t log.path) (hlive : s.Live t log) (record : ByteArray) :
    s.Tidy (log.write t record).tree log.path ∧
      s.KeptAbove log.path log.maxFiles t (log.write t record).tree := by
  obtain ⟨-, hlive', hconfined⟩ := hlive.write_wrote record
  have hholds := hlive'.holds
  rw [RotatingLog.write_path, RotatingLog.write_maxFiles] at hholds
  refine ⟨h.change hholds (hlive.write_accepts (h.files _) record).1 hconfined,
    fun i hi => hconfined.held_above hi, fun i hi id hx => ?_⟩
  -- The active file is in slot 0, and no file is in two slots.
  apply hlive.write_bytes record ((h.holds i).id_lt hx)
  intro hactive
  have hi₀ := (h.holds i).slot_eq hactive hx
  omega

theorem writeAll (h : s.Tidy t log.path) (hlive : s.Live t log) (records : List ByteArray) :
    s.Tidy (log.writeAll t records).1 log.path ∧
      s.KeptAbove log.path log.maxFiles t (log.writeAll t records).1 := by
  induction records generalizing t log with
  | nil => exact ⟨h, .refl⟩
  | cons r rest ih =>
    obtain ⟨htidy, hkept⟩ := h.write hlive r
    rw [← log.write_path t r] at htidy
    obtain ⟨htidy', hkept'⟩ := ih htidy (hlive.write_wrote r).2.1
    rw [log.write_path t r] at htidy' hkept'
    rw [log.write_maxFiles t r] at hkept'
    exact ⟨htidy', hkept.trans hkept'⟩

/-- Opening a log makes its active file at most. -/
theorem opened {t₀ : FileTree} {maxBytes : Nat} (h : s.Tidy t base)
    (hopen : RotatingLog.openAt t base maxBytes n = (t₀, .ok log)) :
    log.path = base ∧ log.maxFiles = n ∧ s.Live t₀ log ∧ s.Tidy t₀ base ∧
      s.KeptAbove base n t t₀ := by
  obtain ⟨hpath, hmax, hlive, hmade⟩ := (h.holds n).opened (h.files n 0 (Nat.zero_le n)) hopen
  refine ⟨hpath, hmax, hlive, ?_⟩
  rcases hmade with rfl | ⟨-, rfl⟩
  · exact ⟨h, .refl⟩
  · have hfits := (h.holds n).reached.fits
    have hconfined := (h.holds n).confined_create (Nat.zero_le n) hfits
    refine ⟨h.change ((h.holds n).create (Nat.zero_le n) hfits)
      ((h.files n).create (h.holds n) hfits) hconfined,
      fun i hi => hconfined.held_above hi, fun i hi id hx => ?_⟩
    exact FileTree.bytes_create_lt t (s.slot 0) ((h.holds i).id_lt hx)

/-- A use leaves the slots above its limit alone. -/
theorem use (h : s.Tidy t base) (u : Usage) :
    s.Tidy (u.run base t) base ∧ s.KeptAbove base u.maxFiles t (u.run base t) := by
  obtain ⟨t₀, log, hopen⟩ := (h.holds 0).exists_opened u.maxBytes u.maxFiles
    (h.files 0 0 (Nat.le_refl 0))
  obtain ⟨rfl, hmax, hlive, htidy, hkept⟩ := h.opened hopen
  obtain ⟨htidy', hkept'⟩ := htidy.writeAll hlive u.records
  rw [hmax] at hkept'
  rw [Usage.run, hopen]
  exact ⟨htidy', hkept.trans hkept'⟩

/-- Uses leave the slots free that are above all their limits. -/
theorem uses (h : s.Tidy t base) (us : List Usage) :
    s.Tidy (us.foldl (Usage.run base) t) base ∧
      ∀ i, (∀ u ∈ us, u.maxFiles < i) → s.held base t i = none →
        s.held base (us.foldl (Usage.run base) t) i = none := by
  induction us generalizing t with
  | nil => exact ⟨h, fun _ _ hfree => hfree⟩
  | cons u rest ih =>
    obtain ⟨htidy, hkept⟩ := h.use u
    obtain ⟨htidy', hfree'⟩ := ih htidy
    refine ⟨htidy', fun i hi hfree => hfree' i (fun v hv => hi v (List.mem_cons_of_mem _ hv)) ?_⟩
    rw [hkept.held i (hi u List.mem_cons_self), hfree]

end Tidy

end Shelf

/-- Where a log has no archives, all its slots are files or free. -/
theorem Placed.tidy {t : FileTree} {path : String} (h : Placed t path)
    (hslash : path.toList.getLast? ≠ some '/')
    (hnone : ∀ i l m, t.resolve false (slotPath path (i + 1)) ≠ .ok (.found l m)) :
    ∃ s : Shelf, s.Tidy t path ∧ ∀ i, s.held path t (i + 1) = none := by
  obtain ⟨s, hs⟩ := h.exists_reached hslash
  have hready : ∀ n, Ready t path n := by
    obtain ⟨target, htarget, hfile⟩ := h.there
    refine fun n => ⟨h.sound, ⟨target, htarget⟩, fun i _ l m hm => ?_⟩
    cases i with
    | zero => exact hfile l m (Except.ok.inj (htarget.symm.trans hm))
    | succ i => exact absurd hm (hnone i l m)
  have htidy : s.Tidy t path :=
    ⟨fun n => ((hready n).holds_of_reached hs).1, fun n => ((hready n).holds_of_reached hs).2⟩
  refine ⟨s, htidy, fun i => ?_⟩
  cases hx : s.held path t (i + 1) with
  | none => rfl
  | some x =>
    exact absurd ((htidy.holds (i + 1)).resolve_held (Nat.le_refl _) false hx) (hnone i _ x)

/-- A log that starts without archives and is used several times, each time with limits of its own:
from when it is opened with a limit on, archives above that limit are just what they were, whatever
is written. None is above all limits so far. -/
theorem archives_above_limit {t t₀ : FileTree} {path : String} {earlier : List Usage}
    {maxBytes n : Nat} {log : RotatingLog} (h : Placed t path)
    (hnone : ∀ i l m, t.resolve false (slotPath path (i + 1)) ≠ .ok (.found l m))
    (hopen : RotatingLog.openAt (earlier.foldl (Usage.run path) t) path maxBytes n = (t₀, .ok log))
    (records : List ByteArray) :
    (∀ i > n, SameAt (earlier.foldl (Usage.run path) t) (log.writeAll t₀ records).1
        (slotPath path i)) ∧
      ∀ i > n, (∀ u ∈ earlier, u.maxFiles < i) →
        ∀ l m, (log.writeAll t₀ records).1.resolve false (slotPath path i) ≠ .ok (.found l m) := by
  obtain ⟨s, htidy, hfree⟩ := h.tidy (h.getLast?_of_opened hopen) hnone
  obtain ⟨htidy₁, hfree₁⟩ := htidy.uses earlier
  obtain ⟨rfl, hmax, hlive, htidy₂, hkept₂⟩ := htidy₁.opened hopen
  obtain ⟨htidy₃, hkept₃⟩ := htidy₂.writeAll hlive records
  rw [hmax] at hkept₃
  have hkept := hkept₂.trans hkept₃
  refine ⟨fun i hi => hkept.sameAt htidy₁ htidy₃ hi, fun i hi hall l m hm => ?_⟩
  obtain ⟨k, rfl⟩ := Nat.exists_eq_succ_of_ne_zero (show i ≠ 0 by omega)
  obtain ⟨hx, -⟩ := (htidy₃.holds (k + 1)).held_of_found (Nat.le_refl _) hm
  rw [hkept.held _ hi, hfree₁ _ hall (hfree k)] at hx
  cases hx

/-- Three records in a log with two archives. -/
def threeRecords : Usage := ⟨4, 2, ["one\n".toUTF8, "two\n".toUTF8, "six\n".toUTF8]⟩

/-- The tree after them, each in a file of its own. -/
def lowered : FileTree :=
  ⟨.dir [("work", .dir [("app.2.log", .file 0), ("app.1.log", .file 1), ("app.log", .file 2)])],
    #["one\n".toUTF8, "two\n".toUTF8, "six\n".toUTF8], ["work"]⟩

theorem lowered_used : threeRecords.run "app.log" FileTree.empty = lowered := by
  have hmade : RotatingLog.makeParent FileTree.empty "app.log" = (FileTree.empty, .ok ()) := rfl
  have harchive : archivePath "app.log" 1 = "app.1.log" ∧ archivePath "app.log" 2 = "app.2.log" :=
    ⟨rfl, rfl⟩
  rw [threeRecords, Usage.run, RotatingLog.openAt, hmade]
  simp +decide [RotatingLog.writeAll, RotatingLog.write, RotatingLog.isFullFor, RotatingLog.rotate,
    RotatingLog.shift, FileTree.pathExists, slotPath, harchive, FileTree.resolve, FileTree.empty,
    Path.pieces, FileTree.walk, Node.get?, Node.entries, List.lookup_cons, RotatingLog.clearSlot,
    FileTree.removeFile, FileTree.rename, FileTree.put, Node.alter, Node.alterEntry,
    RotatingLog.reopen, FileTree.openAppend, FileTree.create, RotatingLog.appendRecord,
    FileTree.append, FileTree.bytes, FileTree.size, bind, Except.bind, lowered]

theorem lowered_opened :
    RotatingLog.openAt lowered "app.log" 4 1 = (lowered, .ok ⟨"app.log", 4, 1, some 2, 4⟩) := by
  have hmade : RotatingLog.makeParent lowered "app.log" = (lowered, .ok ()) := rfl
  rw [RotatingLog.openAt, hmade]
  simp +decide [FileTree.openAppend, FileTree.resolve, lowered, Path.pieces, FileTree.walk,
    Node.get?, Node.entries, List.lookup_cons, FileTree.size, FileTree.bytes]

theorem archives_above_limit_lowered :
    Placed FileTree.empty "app.log" ∧
      (∀ i l m, FileTree.empty.resolve false (slotPath "app.log" (i + 1)) ≠ .ok (.found l m)) ∧
      ∀ records : List ByteArray, ∀ i > 1, SameAt lowered
        (RotatingLog.writeAll ⟨"app.log", 4, 1, some 2, 4⟩ lowered records).1
        (slotPath "app.log" i) := by
  have hthere : FileTree.empty.resolve false "app.log" = .ok (.absent ["work"] "app.log") := by
    simp +decide [FileTree.resolve, FileTree.empty, Path.pieces, FileTree.walk, Node.get?,
      Node.entries]
  obtain ⟨hready, hfree⟩ := Ready.of_empty FileTree.sound_empty hthere rfl (by decide) 0
  refine ⟨hready.placed, fun i => hfree (i + 1), fun records => ?_⟩
  have hopen : RotatingLog.openAt ([threeRecords].foldl (Usage.run "app.log") FileTree.empty)
      "app.log" 4 1 = (lowered, .ok ⟨"app.log", 4, 1, some 2, 4⟩) := by
    rw [List.foldl_cons, List.foldl_nil, lowered_used, lowered_opened]
  have hkept := (archives_above_limit hready.placed (fun i => hfree (i + 1)) hopen records).1
  rwa [List.foldl_cons, List.foldl_nil, lowered_used] at hkept

/-- A log that had two archives is opened with a limit of one. The next rotation leaves the second
archive where it is, and so do all others. -/
theorem lowered_limit_kept :
    threeRecords.run "app.log" FileTree.empty = lowered ∧
      RotatingLog.openAt lowered "app.log" 4 1 = (lowered, .ok ⟨"app.log", 4, 1, some 2, 4⟩) ∧
      (RotatingLog.write ⟨"app.log", 4, 1, some 2, 4⟩ lowered "ten\n".toUTF8).result = .ok () ∧
      (RotatingLog.write ⟨"app.log", 4, 1, some 2, 4⟩ lowered "ten\n".toUTF8).rotated = true ∧
      (RotatingLog.write ⟨"app.log", 4, 1, some 2, 4⟩ lowered "ten\n".toUTF8).tree.readFile
        "app.2.log" = .ok "one\n".toUTF8 := by
  refine ⟨lowered_used, lowered_opened, ?_⟩
  have harchive : archivePath "app.log" 1 = "app.1.log" := rfl
  simp +decide [RotatingLog.write, RotatingLog.rotate, RotatingLog.shift, FileTree.pathExists,
    slotPath, harchive, FileTree.resolve, Path.pieces, FileTree.walk, Node.get?, Node.entries,
    List.lookup_cons, RotatingLog.clearSlot, FileTree.removeFile, FileTree.rename, FileTree.put,
    Node.alter, Node.alterEntry, RotatingLog.reopen, FileTree.openAppend, FileTree.create,
    RotatingLog.appendRecord, FileTree.append, FileTree.readFile, FileTree.bytes, FileTree.size,
    bind, Except.bind, lowered]

end Overseer.Log
