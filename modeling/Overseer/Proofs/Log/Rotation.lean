import Overseer.Proofs.Log.Suffix

/-! One rotation, whichever slots are taken: `rotation_steps_up` says that what is in each slot
moves to the next one, gaps included, and that nothing else in the tree changes. -/

namespace Overseer

/-- Where a path leads, whether there is a node or not. -/
def FileTree.Target.location : Target → Location
  | .found l _ => l
  | .absent d a => d ++ [a]

namespace Log

/-- One of the slots up to `n` is at this location. -/
def IsSlot (t : FileTree) (path : String) (n : Nat) (l : Location) : Prop :=
  ∃ i ≤ n, ∃ target, t.resolve false (slotPath path i) = .ok target ∧ target.location = l

/-- A log with `n + 1` archives after one rotation. A slot is taken if its path leads to
something. -/
structure SteppedUp (t t' : FileTree) (path : String) (n : Nat) : Prop where
  /-- The active file is a new one, and empty. -/
  active : (∃ l, t'.resolve false path = .ok (.found l (.file t.contents.size))) ∧
    fileAt t' path = some []
  /-- What was in a slot is in the next one. -/
  moved : ∀ i ≤ n, t.pathExists (slotPath path i) = true →
    ∃ c, fileAt t (slotPath path i) = some c ∧ fileAt t' (slotPath path (i + 1)) = some c
  /-- A slot below the last is free if the one before it was. -/
  gap : ∀ i < n, t.pathExists (slotPath path i) = false →
    t'.pathExists (slotPath path (i + 1)) = false
  /-- The last slot is left alone if the one before it was free. -/
  last : t.pathExists (slotPath path n) = false → SameAt t t' (slotPath path (n + 1))
  /-- Only what was in the last slot is gone, if anything has come in its place. -/
  dropped : (if t.pathExists (slotPath path n) then (fileAt t (slotPath path (n + 1))).toList
      else []) ++ logFiles t' path (n + 1) = logFiles t path (n + 1) ++ [[]]
  /-- No file has other bytes than before; the new one is empty. -/
  contents : t'.contents = t.contents.push .empty
  /-- Outside the slots nothing has come, gone or become something else. -/
  beside : ∀ l, ¬ IsSlot t path (n + 1) l → t'.root.kindAt l = t.root.kindAt l
  working : t'.working = t.working

namespace Shelf

section Lifted

variable {α : Type} {σ : Nat → Option α} {n i : Nat}

theorem lifted_of_lt (h : i + 1 < n) : lifted σ n (i + 1) = σ i := by rw [lifted, if_pos h]

theorem lifted_of_some (hi : i < n) {x : α} (h : σ i = some x) : lifted σ n (i + 1) = some x := by
  by_cases hlast : i + 1 < n
  · rw [lifted_of_lt hlast, h]
  · rw [lifted, if_neg hlast, if_pos (by omega), h, Option.some_or]

theorem lifted_last (h : σ n = none) : lifted σ (n + 1) (n + 1) = σ (n + 1) := by
  rw [lifted, if_neg (by omega), if_pos rfl, h, Option.none_or]

end Lifted

variable {s : Shelf} {t t' : FileTree} {log log' : RotatingLog} {base : String} {n : Nat}

theorem Holds.isSlot (h : s.Holds t base n) {i : Nat} (hi : i ≤ n) (hfit : s.Fits base i) :
    IsSlot t base n (s.slot i) := by
  have hresolve := h.resolve_slot hi false
  rw [if_pos hfit] at hresolve
  refine ⟨i, hi, _, hresolve, ?_⟩
  unfold FileTree.entryAt
  split
  · rfl
  · rfl

/-- There is nothing below a slot. -/
theorem OnlyFiles.kindAt_below (honly : s.OnlyFiles base n t) {i : Nat} (hi : i ≤ n)
    (hfit : s.Fits base i) {l : Location} (hl : s.slot i <+: l) (hne : l ≠ s.slot i) :
    t.root.kindAt l = none := by
  obtain ⟨r, rfl⟩ := hl
  have hr : r ≠ [] := by
    rintro rfl
    exact hne (List.append_nil _)
  by_contra hsome
  have hdir : t.root.kindAt (s.slot i) = some .dir := by
    apply Node.kindAt_of_below hr
    rwa [Node.kindAt_eq_none_iff] at hsome
  obtain ⟨es, hes⟩ := Node.kindAt_eq_dir_iff.mp hdir
  obtain ⟨id, hid⟩ := honly i hi (.dir es) (by rw [held, if_pos hfit, hes])
  cases hid

/-- A rotation that goes through, seen on what the slots hold. -/
theorem Holds.rotate_ok (h : s.Holds t log.path log.maxFiles) (hn : log.maxFiles ≠ 0)
    (hrotate : log.rotate t = (t', log', .ok ())) :
    log' = { log with handle := some t.contents.size, size := 0 } ∧
      s.Holds t' log.path log.maxFiles ∧
      s.held log.path t' = set (lifted (s.held log.path t) log.maxFiles) 0
        (some (.file t.contents.size)) ∧
      t'.contents = t.contents.push .empty ∧ s.Confined log.path log.maxFiles t t' := by
  rcases h.raise_cases hn with hraise | ⟨-, e, hraise⟩
  · obtain ⟨t₁, hrotated, hholds, hheld, hcontents, hconfined⟩ := h.rotate_shifted log hn hraise
    rw [hrotate] at hrotated
    cases hrotated
    have hfits := hholds.reached.fits
    rw [← hcontents]
    refine ⟨rfl, hholds.create (Nat.zero_le _) hfits, ?_, rfl,
      hconfined.trans (hholds.confined_create (Nat.zero_le _) hfits)⟩
    rw [hholds.held_create hfits, hheld]
  · rw [h.rotate_stuck log hn (congrArg (·.2) hraise)] at hrotate
    cases hrotate

/-- What the slots hold tells all of it. -/
theorem Holds.steppedUp (h : s.Holds t base (n + 1)) (h' : s.Holds t' base (n + 1))
    (honly : s.OnlyFiles base (n + 1) t)
    (hheld : s.held base t' =
      set (lifted (s.held base t) (n + 1)) 0 (some (.file t.contents.size)))
    (hcontents : t'.contents = t.contents.push .empty)
    (hconfined : s.Confined base (n + 1) t t') : SteppedUp t t' base n := by
  have honly' : s.OnlyFiles base (n + 1) t' := honly.lifted hheld
  have hstored : s.stored base t' = set (lifted (s.stored base t) (n + 1)) 0 (some []) :=
    h.stored_shifted hheld hcontents
  have hheld' : ∀ i, s.held base t' (i + 1) = lifted (s.held base t) (n + 1) (i + 1) := fun i => by
    rw [hheld, set_ne _ _ _ (by omega)]
  have hfreed : ∀ i ≤ n, t.pathExists (slotPath base i) = false → s.held base t i = none := by
    intro i hi hfree
    rwa [h.pathExists_slot (by omega), Option.isSome_eq_false_iff,
      Option.isNone_iff_eq_none] at hfree
  constructor
  case active =>
    have hx : s.held base t' 0 = some (.file t.contents.size) := by rw [hheld, set_self]
    have hempty : fileAt t' (slotPath base 0) = some [] := by
      rw [h'.fileAt_slot honly' (Nat.zero_le _), hstored, set_self]
    exact ⟨⟨_, h'.resolve_held (Nat.zero_le _) false hx⟩, hempty⟩
  case moved =>
    intro i hi hex
    rw [h.pathExists_slot (by omega), Option.isSome_iff_exists] at hex
    obtain ⟨x, hx⟩ := hex
    have hc : s.stored base t i = some (content t x) := by
      rw [stored, hx]
      rfl
    refine ⟨content t x, by rw [h.fileAt_slot honly (by omega), hc], ?_⟩
    rw [h'.fileAt_slot honly' (by omega), hstored, set_ne _ _ _ (by omega),
      lifted_of_some (by omega) hc]
  case gap =>
    intro i hi hfree
    rw [h'.pathExists_slot (by omega), hheld', lifted_of_lt (by omega), hfreed i (by omega) hfree]
    rfl
  case last =>
    intro hfree
    have hsame : s.held base t' (n + 1) = s.held base t (n + 1) := by
      rw [hheld', lifted_last (hfreed n (Nat.le_refl n) hfree)]
    refine ⟨h.resolve_congr h' (Nat.le_refl _) hsame false, fun l m hm r id hr => ?_⟩
    -- A file in the slot is stored in the tree, and so is older than the new one.
    have hid : id < t.contents.size := by
      have hx := get?_of_held (h.held_of_found (Nat.le_refl _) hm).1
      apply h.intact.stored (s.slot (n + 1) ++ r)
      rw [Node.kindAt, Node.get?_append, hx]
      exact hr
    simp [FileTree.bytes, hcontents, Array.getElem?_push, Nat.ne_of_lt hid]
  case dropped =>
    have hlast : (s.stored base t n).isSome = t.pathExists (slotPath base n) := by
      rw [stored, Option.isSome_map, h.pathExists_slot (by omega)]
    have hfree : lifted (s.stored base t) (n + 1) 0 = none := rfl
    rw [h.logFiles_eq honly, h'.logFiles_eq honly', hstored, oldestFirst_set_zero, set_of_eq hfree,
      h.fileAt_slot honly (Nat.le_refl _), ← hlast, ← List.append_assoc, oldestFirst_lifted]
    rfl
  case contents => exact hcontents
  case beside =>
    intro l hl
    by_cases hbelow : ∃ i ≤ n + 1, s.Fits base i ∧ s.slot i <+: l
    · obtain ⟨i, hi, hfit, hslot⟩ := hbelow
      have hne : l ≠ s.slot i := by
        rintro rfl
        exact hl (h.isSlot hi hfit)
      rw [honly.kindAt_below hi hfit hslot hne, honly'.kindAt_below hi hfit hslot hne]
    · exact hconfined.kinds l fun i hi hfit hslot => hbelow ⟨i, hi, hfit, hslot⟩
  case working => exact hconfined.working

end Shelf

/-- Files can be rotated if the path of the last slot can be followed. -/
theorem Ready.exists_rotated {t : FileTree} {log : RotatingLog}
    (h : Ready t log.path log.maxFiles) (hslash : log.path.toList.getLast? ≠ some '/')
    (hn : log.maxFiles ≠ 0)
    (hlast : ∃ target, t.resolve false (slotPath log.path log.maxFiles) = .ok target) :
    ∃ t' log', log.rotate t = (t', log', .ok ()) := by
  obtain ⟨s, hholds, honly⟩ := h.holds hslash
  rcases hholds.raise_cases hn with hraise | ⟨hdir, -⟩
  · obtain ⟨t', hrotate, -⟩ := hholds.rotate_shifted log hn hraise
    exact ⟨_, _, hrotate⟩
  · have hfit : s.Fits log.path log.maxFiles := by
      by_contra hfit
      obtain ⟨target, htarget⟩ := hlast
      rw [hholds.resolve_unfit (Nat.le_refl _) false hfit] at htarget
      cases htarget
    obtain ⟨es, hes⟩ := hdir hfit
    obtain ⟨id, hid⟩ := honly _ (Nat.le_refl _) _ hes
    cases hid

/-- A rotation that goes through moves every slot that is taken to the next one, leaves a gap after
each that is free, and makes a new active file. No other file or name changes. No file has a second
name (a hard link). -/
theorem rotation_steps_up {t t' : FileTree} {log log' : RotatingLog} {n : Nat}
    (h : Ready t log.path log.maxFiles) (hn : log.maxFiles = n + 1)
    (hrotate : log.rotate t = (t', log', .ok ())) :
    log' = { log with handle := some t.contents.size, size := 0 } ∧
      SteppedUp t t' log.path n := by
  have hne : log.maxFiles ≠ 0 := by omega
  obtain ⟨t₁, id, -, hopen, -⟩ := RotatingLog.shift_of_rotate hne hrotate
  obtain ⟨s, hholds, honly⟩ := h.holds (h.placed.getLast?_of_openAppend hopen)
  obtain ⟨hlog, hholds', hheld, hcontents, hconfined⟩ := hholds.rotate_ok hne hrotate
  rw [hn] at hholds hholds' hheld hconfined honly
  exact ⟨hlog, hholds.steppedUp hholds' honly hheld hcontents hconfined⟩

/-- The active file goes to the first archive, where there was none, and the second stays. -/
theorem rotation_steps_up_gapped :
    let log : RotatingLog := ⟨"app.log", 4, 2, some 0, 3⟩
    Ready gapped log.path log.maxFiles ∧ log.maxFiles = 1 + 1 ∧
      ∃ t' log', log.rotate gapped = (t', log', .ok ()) ∧ SteppedUp gapped t' log.path 1 := by
  intro log
  have hreached := Shelf.reached_of_name gapped_ready.sound "app.log"
    ⟨by decide, by decide, by decide⟩ (by decide) (by decide) (by decide)
  have hlast := (hreached.resolve_slot 2 false (by simp)).trans (if_pos (by decide))
  have hrotated : ∃ t' log', log.rotate gapped = (t', log', .ok ()) :=
    Ready.exists_rotated gapped_ready (by decide) (by decide) ⟨_, hlast⟩
  obtain ⟨t', log', hrotate⟩ := hrotated
  exact ⟨gapped_ready, rfl, t', log', hrotate, (rotation_steps_up gapped_ready rfl hrotate).2⟩

end Log

end Overseer
