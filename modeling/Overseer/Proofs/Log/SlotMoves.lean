import Overseer.Proofs.Log.Slots

/-! Operations on the slots of a log. Each keeps `Shelf.Holds`, is told by what it does to `held`,
and changes nothing else (`Shelf.Confined`); `shift_raises` does so for the shift of a rotation. -/

namespace Overseer.Log

namespace Shelf

variable {s : Shelf} {t t' : FileTree} {base : String} {n : Nat}

namespace Holds

/-- A change that leaves what is outside the slots, and makes no slot a link. -/
theorem change (h : s.Holds t base n) (hintact : t'.Intact) (hworking : t'.working = t.working)
    (hout : ∀ l k, s.Outside base n t l k → s.Outside base n t' l k)
    (hlink : ∀ i ≤ n, s.Fits base i → ∀ target,
      t'.root.kindAt (s.slot i) ≠ some (.link target)) :
    s.Holds t' base n where
  intact := hintact
  reached := by
    rw [hworking]
    exact h.reached.mono fun l k hk _ => hout l k hk
  noLink := hlink

theorem of_root (h : s.Holds t base n) (hintact : t'.Intact) (hworking : t'.working = t.working)
    (hroot : t'.root = t.root) : s.Holds t' base n := by
  apply h.change hintact hworking
  · intro l k hk
    rw [Outside, hroot]
    exact hk
  · rw [hroot]
    exact h.noLink

theorem append (h : s.Holds t base n) (id : Nat) (data : ByteArray) :
    s.Holds (t.append id data) base n :=
  h.of_root (h.intact.append id data) rfl rfl

theorem truncate (h : s.Holds t base n) (id : Nat) : s.Holds (t.truncate id) base n :=
  h.of_root (h.intact.truncate id) rfl rfl

theorem kindAt_put_slot (h : s.Holds t base n) (i : Nat) (m : Option Node) {l : Location}
    (hl : ¬ s.slot i <+: l) : (t.put (s.slot i) m).root.kindAt l = t.root.kindAt l :=
  Node.kindAt_alter_beside h.intact.distinct s.directory _ h.isDir m hl

theorem get?_put_slot (h : s.Holds t base n) (i : Nat) (m : Option Node) :
    (t.put (s.slot i) m).root.get? (s.slot i) = m := by
  have := Node.get?_alter_below h.intact.distinct s.directory (String.ofList (slotName s.name i))
    h.isDir m []
  cases m with
  | none => exact this
  | some x => exact this

/-- Another node in a slot, in a tree with the same names. -/
theorem put (h : s.Holds t base n) {i : Nat} (hi : i ≤ n) (hfit : s.Fits base i) {m : Option Node}
    (hintact : t'.Intact) (hworking : t'.working = t.working)
    (hroot : t'.root = (t.put (s.slot i) m).root) (hm : ∀ target, m ≠ some (.link target)) :
    s.Holds t' base n := by
  apply h.change hintact hworking
  · rintro l k ⟨hk, hl⟩
    refine ⟨?_, hl⟩
    rw [hroot, h.kindAt_put_slot i m (hl i hi hfit)]
    exact hk
  · intro j hj hfitj target
    rw [hroot]
    by_cases hji : j = i
    · subst hji
      rw [Ne, Node.kindAt_eq_link_iff, h.get?_put_slot]
      exact hm target
    · rw [h.kindAt_put_slot i m (s.not_slot_below (Ne.symm hji))]
      exact h.noLink j hj hfitj target

theorem remove (h : s.Holds t base n) {i : Nat} (hi : i ≤ n) (hfit : s.Fits base i) :
    s.Holds (t.put (s.slot i) none) base n :=
  h.put hi hfit (h.intact.remove h.isDir) rfl rfl (by simp)

theorem create (h : s.Holds t base n) {i : Nat} (hi : i ≤ n) (hfit : s.Fits base i) :
    s.Holds (t.create (s.slot i)).1 base n :=
  h.put hi hfit (h.intact.create h.isDir) rfl rfl
    (by simp : ∀ target, some (Node.file t.contents.size) ≠ some (.link target))

theorem move (h : s.Holds t base n) {i j : Nat} (hi : i ≤ n) (hj : j ≤ n) {x : Node}
    (hx : s.held base t i = some x) (hfit : s.Fits base j) :
    s.Holds ((t.put (s.slot i) none).put (s.slot j) (some x)) base n := by
  have hfiti := fits_of_held hx
  have hget := get?_of_held hx
  have hnolink : ∀ target, some x ≠ some (Node.link target) := by
    rintro target ⟨⟩
    exact h.noLink i hi hfiti target (Node.kindAt_eq_link_iff.mpr hget)
  exact (h.remove hi hfiti).put hj hfit (h.intact.move h.isDir hget) rfl rfl hnolink

end Holds

/-! ## What is left alone -/

/-- Outside the slots up to `n` the two trees are the same. -/
structure Confined (s : Shelf) (base : String) (n : Nat) (t t' : FileTree) : Prop where
  working : t'.working = t.working
  kinds : ∀ l, (∀ i ≤ n, s.Fits base i → ¬ s.slot i <+: l) → t'.root.kindAt l = t.root.kindAt l
  nodes : ∀ l, (∀ i ≤ n, s.Fits base i → ¬ s.slot i <+: l) → ¬ l <+: s.directory →
    t'.root.get? l = t.root.get? l

namespace Confined

theorem of_root (hroot : t'.root = t.root) (hworking : t'.working = t.working) :
    s.Confined base n t t' where
  working := hworking
  kinds _ _ := by rw [hroot]
  nodes _ _ _ := by rw [hroot]

theorem refl : s.Confined base n t t := of_root rfl rfl

theorem trans {t'' : FileTree} (h : s.Confined base n t t') (h' : s.Confined base n t' t'') :
    s.Confined base n t t'' where
  working := h'.working.trans h.working
  kinds l hl := (h'.kinds l hl).trans (h.kinds l hl)
  nodes l hl hd := (h'.nodes l hl hd).trans (h.nodes l hl hd)

end Confined

theorem Holds.confined_put (h : s.Holds t base n) {i : Nat} (hi : i ≤ n) (hfit : s.Fits base i)
    (m : Option Node) : s.Confined base n t (t.put (s.slot i) m) where
  working := rfl
  kinds _ hl := h.kindAt_put_slot i m (hl i hi hfit)
  nodes _ hl hd :=
    Node.get?_alter_apart h.intact.distinct s.directory _ h.isDir m (hl i hi hfit) hd

theorem Holds.confined_create (h : s.Holds t base n) {i : Nat} (hi : i ≤ n)
    (hfit : s.Fits base i) : s.Confined base n t (t.create (s.slot i)).1 :=
  (h.confined_put hi hfit (some (.file t.contents.size))).trans (.of_root rfl rfl)

/-! ## What the slots hold afterwards -/

section Set

variable {α : Type} (σ : Nat → Option α) (i : Nat) (m : Option α)

/-- `σ` with slot `i` holding `m`. -/
def set (j : Nat) : Option α := if j = i then m else σ j

@[simp] theorem set_self : set σ i m i = m := if_pos rfl

theorem set_ne {j : Nat} (h : j ≠ i) : set σ i m j = σ j := if_neg h

end Set

theorem set_of_eq {α : Type} {σ : Nat → Option α} {i : Nat} {m : Option α} (h : σ i = m) :
    set σ i m = σ := by
  funext j
  by_cases hj : j = i
  · subst hj
    rw [set_self, h]
  · rw [set_ne σ i m hj]

namespace Holds

theorem held_put (h : s.Holds t base n) {i : Nat} (hfit : s.Fits base i) (m : Option Node) :
    s.held base (t.put (s.slot i) m) = set (s.held base t) i m := by
  funext j
  by_cases hj : j = i
  · subst hj
    rw [set_self, held, if_pos hfit, h.get?_put_slot]
  · rw [set_ne _ _ m hj, held, held]
    have hget : (t.put (s.slot i) m).root.get? (s.slot j) = t.root.get? (s.slot j) :=
      Node.get?_alter_apart h.intact.distinct s.directory _ h.isDir m
        (s.not_slot_below (Ne.symm hj)) (s.not_slot_above j)
    rw [hget]

theorem held_create (h : s.Holds t base n) {i : Nat} (hfit : s.Fits base i) :
    s.held base (t.create (s.slot i)).1 =
      set (s.held base t) i (some (.file t.contents.size)) :=
  h.held_put hfit _

/-! ## The operations by the paths of slots -/

theorem pathExists_slot (h : s.Holds t base n) {i : Nat} (hi : i ≤ n) :
    t.pathExists (slotPath base i) = (s.held base t i).isSome := by
  unfold FileTree.pathExists
  cases hx : s.held base t i with
  | some x => rw [h.resolve_held hi true hx]; rfl
  | none =>
    by_cases hfit : s.Fits base i
    · rw [h.resolve_free hi true hfit hx]; rfl
    · rw [h.resolve_unfit hi true hfit]; rfl

theorem isDir_slot (h : s.Holds t base n) {i : Nat} (hi : i ≤ n) :
    t.isDir (slotPath base i) = true ↔ ∃ es, s.held base t i = some (.dir es) := by
  unfold FileTree.isDir
  cases hx : s.held base t i with
  | some x =>
    rw [h.resolve_held hi true hx]
    cases x <;> simp [Node.isDir]
  | none =>
    by_cases hfit : s.Fits base i
    · rw [h.resolve_free hi true hfit hx]; simp
    · rw [h.resolve_unfit hi true hfit]; simp

theorem readFile_slot (h : s.Holds t base n) {i : Nat} (hi : i ≤ n) {id : Nat}
    (hx : s.held base t i = some (.file id)) :
    t.readFile (slotPath base i) = .ok (t.bytes id) := by
  rw [FileTree.readFile, h.resolve_held hi true hx]
  rfl

/-- Clearing a slot frees it, unless a directory holds it or its path leads nowhere. -/
theorem clearSlot_slot (h : s.Holds t base n) {i : Nat} (hi : i ≤ n) :
    RotatingLog.clearSlot t (slotPath base i) =
      if s.Fits base i then
        match s.held base t i with
        | none => .ok t
        | some (.dir _) => .error .isDirectory
        | some _ => .ok (t.put (s.slot i) none)
      else .error .nameTooLong := by
  rw [RotatingLog.clearSlot, FileTree.removeFile]
  by_cases hfit : s.Fits base i
  · rw [if_pos hfit]
    cases hx : s.held base t i with
    | none => rw [h.resolve_free hi false hfit hx]; rfl
    | some x =>
      rw [h.resolve_held hi false hx]
      cases x <;> rfl
  · rw [if_neg hfit, h.resolve_unfit hi false hfit]
    rfl

theorem rename_slot (h : s.Holds t base n) {i j : Nat} (hi : i ≤ n) (hj : j ≤ n) (hij : i ≠ j)
    {x : Node} (hx : s.held base t i = some x) (hfit : s.Fits base j)
    (hfree : s.held base t j = none) :
    t.rename (slotPath base i) (slotPath base j) =
      .ok ((t.put (s.slot i) none).put (s.slot j) (some x)) := by
  have hapart : (s.slot i).isPrefixOf (s.slot j) = false := by
    rw [Bool.eq_false_iff]
    intro hp
    exact s.not_slot_below hij (List.isPrefixOf_iff_prefix.mp hp)
  rw [FileTree.rename, h.resolve_held hi false hx, h.resolve_free hj false hfit hfree]
  simp only [bind, Except.bind]
  show (if (s.slot i).isPrefixOf (s.slot j) = true then _ else _) = _
  rw [if_neg (by simp [hapart])]
  rfl

theorem openAppend_held (h : s.Holds t base n) {id : Nat}
    (hx : s.held base t 0 = some (.file id)) : t.openAppend base = .ok (t, id) := by
  have hres : t.resolve true base = _ := h.resolve_held (Nat.zero_le n) true hx
  rw [FileTree.openAppend]
  simp only [h.reached.getLast?_base, false_and, ↓reduceIte, hres]

theorem openAppend_free (h : s.Holds t base n) (hx : s.held base t 0 = none) :
    t.openAppend base = .ok (t.create (s.slot 0)) := by
  have hres : t.resolve true base = _ := h.resolve_free (Nat.zero_le n) true h.reached.fits hx
  rw [FileTree.openAppend]
  simp only [h.reached.getLast?_base, false_and, ↓reduceIte, hres]
  rfl

end Holds

end Shelf

end Overseer.Log
