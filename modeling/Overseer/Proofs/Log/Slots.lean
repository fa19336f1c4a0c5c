import Overseer.Proofs.FileTree.Sound
import Overseer.Proofs.Log.SlotPath

/-! The slots of a log as entries of one directory. `Shelf.Reached` says that the log's path leads
there; `Shelf.Holds` is what operations on the slots rely on and keep. Under it each of them is
told by what it does to `held`, what the slots hold. -/

namespace Overseer.Log

open FileTree (Plain Leads entryAt)

/-- The pieces of a log's path: those above its name, the name, and the directory that the
former lead to. -/
structure Shelf where
  above : List (List Char)
  name : List Char
  directory : Location

namespace Shelf

def slot (s : Shelf) (i : Nat) : Location := s.directory ++ [String.ofList (slotName s.name i)]

/-- The path and the name of a slot are not too long. -/
def Fits (s : Shelf) (base : String) (i : Nat) : Prop :=
  (slotPath base i).utf8ByteSize ≤ FileTree.maxPathBytes ∧
    (String.ofList (slotName s.name i)).utf8ByteSize ≤ FileTree.maxNameBytes

instance (s : Shelf) (base : String) : DecidablePred (s.Fits base) := fun _ =>
  inferInstanceAs (Decidable (_ ∧ _))

/-- What a slot holds that its path leads to. -/
def held (s : Shelf) (base : String) (t : FileTree) (i : Nat) : Option Node :=
  if s.Fits base i then t.root.get? (s.slot i) else none

theorem slot_ne (s : Shelf) {i j : Nat} (h : i ≠ j) : s.slot i ≠ s.slot j := by
  intro he
  have hname := List.append_cancel_left he
  exact slotName_ne h (List.cons.inj hname).1

/-- No slot lies below another. -/
theorem not_slot_below (s : Shelf) {i j : Nat} (h : i ≠ j) : ¬ s.slot i <+: s.slot j := by
  intro hp
  exact s.slot_ne h (hp.eq_of_length (by simp [slot]))

theorem not_slot_above (s : Shelf) (i : Nat) : ¬ s.slot i <+: s.directory := by
  intro hp
  have := hp.length_le
  simp only [slot, List.length_append, List.length_singleton] at this
  omega

variable {s : Shelf} {t : FileTree} {base : String} {n : Nat}

theorem fits_of_held {i : Nat} {x : Node} (h : s.held base t i = some x) : s.Fits base i := by
  unfold held at h
  split at h
  · assumption
  · cases h

theorem get?_of_held {i : Nat} {x : Node} (h : s.held base t i = some x) :
    t.root.get? (s.slot i) = some x := by
  rw [held, if_pos (fits_of_held h)] at h
  exact h

/-! ## The way to the slots -/

/-- The pieces of the log's path, through nodes of the given kinds, lead to the directory. -/
structure Reached (s : Shelf) (kind : Location → Kind → Prop) (working : Location)
    (base : String) : Prop where
  pieces : Path.pieces base.toList = s.above ++ [s.name]
  plain : Plain s.name
  clean : Char.ofNat 0 ∉ base.toList
  fits : s.Fits base 0
  leads : Leads kind FileTree.maxLinks (if Path.isAbsolute base.toList then [] else working)
    s.above s.directory

namespace Reached

variable {kind kind' : Location → Kind → Prop} {working : Location}

theorem mono (h : s.Reached kind working base)
    (hkind : ∀ l k, kind l k → (∀ id, k ≠ .file id) → kind' l k) :
    s.Reached kind' working base :=
  { h with leads := h.leads.mono hkind }

/-- A slot fits if one of a higher index does. -/
theorem fits_of_le (h : s.Reached kind working base) {i j : Nat} (hij : i ≤ j)
    (hj : s.Fits base j) : s.Fits base i := by
  cases i with
  | zero => exact h.fits
  | succ i =>
    cases j with
    | zero => omega
    | succ j =>
      exact ⟨Nat.le_trans (archivePath_size_mono h.pieces h.plain hij) hj.1,
        Nat.le_trans (archiveName_size_mono s.name hij) hj.2⟩

theorem clean_slotPath (h : s.Reached kind working base) (i : Nat) :
    Char.ofNat 0 ∉ (slotPath base i).toList := by
  cases i with
  | zero => exact h.clean
  | succ i =>
    intro hm
    rcases mem_archivePath h.pieces h.plain hm with hm | hm | hm | hm
    · exact h.clean hm
    all_goals exact absurd hm (by decide)

/-- The pieces before the name of a slot lead to the directory. -/
theorem leads_slotPath (h : s.Reached kind working base) (i : Nat) :
    ∃ ps, Path.pieces (slotPath base i).toList = ps ++ [slotName s.name i] ∧
      Leads kind FileTree.maxLinks
        (if Path.isAbsolute (slotPath base i).toList then [] else working) ps s.directory := by
  cases i with
  | zero => exact ⟨s.above, h.pieces, h.leads⟩
  | succ i =>
    refine ⟨Path.trimmed s.above, pieces_archivePath h.pieces h.plain _, ?_⟩
    show Leads _ _ (if Path.isAbsolute (archivePath base (i + 1)).toList then _ else _) _ _
    rw [isAbsolute_archivePath h.pieces h.plain]
    obtain ⟨gone, hgone, hblank⟩ := Path.trimmed_append s.above
    have hleads := h.leads
    rw [hgone] at hleads
    exact hleads.of_append_blank hblank

/-- The log's own path does not end in a slash. -/
theorem getLast?_base (h : s.Reached kind working base) : base.toList.getLast? ≠ some '/' := by
  intro hlast
  obtain ⟨x, hx⟩ := List.getLast?_eq_some_iff.mp hlast
  have hp := h.pieces
  rw [hx, Path.pieces_append_slash, Path.pieces] at hp
  exact h.plain.1 (List.cons.inj (List.append_inj' hp rfl).2).1.symm

theorem isDir (h : s.Reached (t.root.kindAt · = some ·) working base) :
    t.root.kindAt s.directory = some .dir := h.leads.isDir

theorem resolve_slot (h : s.Reached (t.root.kindAt · = some ·) t.working base) (i : Nat)
    (follow : Bool)
    (hlink : s.Fits base i → ∀ target, follow = true →
      t.root.kindAt (s.slot i) ≠ some (.link target)) :
    t.resolve follow (slotPath base i) =
      if s.Fits base i then .ok (entryAt t.root s.directory (String.ofList (slotName s.name i)))
      else .error .nameTooLong := by
  obtain ⟨ps, hps, hleads⟩ := h.leads_slotPath i
  have hplain := slotName_plain h.plain i
  have hne : (slotPath base i).toList ≠ [] := by
    intro he
    rw [he, Path.pieces] at hps
    cases ps with
    | nil => exact hplain.1 (List.cons.inj hps).1.symm
    | cons p ps => simp at hps
  have hclean : (slotPath base i).toList.contains (Char.ofNat 0) = false := by
    simpa using h.clean_slotPath i
  rw [FileTree.resolve, hclean, hps]
  simp only [Bool.false_eq_true, ↓reduceIte, hne]
  by_cases hpath : (slotPath base i).utf8ByteSize ≤ FileTree.maxPathBytes
  · rw [if_neg (Nat.not_lt.mpr hpath), FileTree.walk_of_leads hleads follow hplain
      fun hname hfollow target => hlink ⟨hpath, hname⟩ target hfollow, FileTree.lastStep]
    by_cases hname : (String.ofList (slotName s.name i)).utf8ByteSize ≤ FileTree.maxNameBytes
    · rw [if_neg (Nat.not_lt.mpr hname), if_pos ⟨hpath, hname⟩]
    · rw [if_pos (Nat.not_le.mp hname), if_neg fun hfit => hname hfit.2]
  · rw [if_pos (Nat.not_le.mp hpath), if_neg fun hfit => hpath hfit.1]

end Reached

/-! ## What the slots rely on -/

/-- What stands outside the slots up to `n`. -/
def Outside (s : Shelf) (base : String) (n : Nat) (t : FileTree) (l : Location) (k : Kind) : Prop :=
  t.root.kindAt l = some k ∧ ∀ i ≤ n, s.Fits base i → ¬ s.slot i <+: l

/-- The log's path leads to the directory without passing through its slots, and no slot up to
`n` is a link. -/
structure Holds (s : Shelf) (t : FileTree) (base : String) (n : Nat) : Prop where
  intact : t.Intact
  reached : s.Reached (s.Outside base n t) t.working base
  noLink : ∀ i ≤ n, s.Fits base i → ∀ target, t.root.kindAt (s.slot i) ≠ some (.link target)

namespace Holds

theorem reaches (h : s.Holds t base n) :
    s.Reached (t.root.kindAt · = some ·) t.working base :=
  h.reached.mono fun _ _ hk _ => hk.1

theorem isDir (h : s.Holds t base n) : t.root.kindAt s.directory = some .dir := h.reaches.isDir

theorem resolve_slot (h : s.Holds t base n) {i : Nat} (hi : i ≤ n) (follow : Bool) :
    t.resolve follow (slotPath base i) =
      if s.Fits base i then .ok (entryAt t.root s.directory (String.ofList (slotName s.name i)))
      else .error .nameTooLong :=
  h.reaches.resolve_slot i follow fun hfit target _ => h.noLink i hi hfit target

theorem resolve_unfit (h : s.Holds t base n) {i : Nat} (hi : i ≤ n) (follow : Bool)
    (hfit : ¬ s.Fits base i) : t.resolve follow (slotPath base i) = .error .nameTooLong := by
  rw [h.resolve_slot hi, if_neg hfit]

theorem resolve_free (h : s.Holds t base n) {i : Nat} (hi : i ≤ n) (follow : Bool)
    (hfit : s.Fits base i) (hx : s.held base t i = none) :
    t.resolve follow (slotPath base i) =
      .ok (.absent s.directory (String.ofList (slotName s.name i))) := by
  rw [held, if_pos hfit, slot] at hx
  rw [h.resolve_slot hi, if_pos hfit, entryAt, hx]

theorem resolve_held (h : s.Holds t base n) {i : Nat} (hi : i ≤ n) (follow : Bool) {x : Node}
    (hx : s.held base t i = some x) :
    t.resolve follow (slotPath base i) = .ok (.found (s.slot i) x) := by
  have hget := get?_of_held hx
  rw [slot] at hget
  rw [h.resolve_slot hi, if_pos (fits_of_held hx), entryAt, hget, slot]

/-- What a slot's path leads to is what the slot holds. -/
theorem held_of_found (h : s.Holds t base n) {i : Nat} (hi : i ≤ n) {follow : Bool} {l : Location}
    {x : Node} (hx : t.resolve follow (slotPath base i) = .ok (.found l x)) :
    s.held base t i = some x ∧ l = s.slot i := by
  cases hy : s.held base t i with
  | some y =>
    rw [h.resolve_held hi follow hy] at hx
    cases hx
    exact ⟨rfl, rfl⟩
  | none =>
    by_cases hfit : s.Fits base i
    · rw [h.resolve_free hi follow hfit hy] at hx
      cases hx
    · rw [h.resolve_unfit hi follow hfit] at hx
      cases hx

theorem resolve_congr {t' : FileTree} (h : s.Holds t base n) (h' : s.Holds t' base n) {i : Nat}
    (hi : i ≤ n) (hheld : s.held base t' i = s.held base t i) (follow : Bool) :
    t'.resolve follow (slotPath base i) = t.resolve follow (slotPath base i) := by
  cases hx : s.held base t i with
  | some x => rw [h.resolve_held hi follow hx, h'.resolve_held hi follow (hheld.trans hx)]
  | none =>
    by_cases hfit : s.Fits base i
    · rw [h.resolve_free hi follow hfit hx, h'.resolve_free hi follow hfit (hheld.trans hx)]
    · rw [h.resolve_unfit hi follow hfit, h'.resolve_unfit hi follow hfit]

end Holds

end Shelf

end Overseer.Log
