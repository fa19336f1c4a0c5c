import Overseer.Proofs.FileTree.Lookup

/-! Trees in which each file has one name and bytes of its own: there are no hard links. Creating,
removing and moving a file within a directory, and writing to it, keep a tree so. `Intact` leaves
the working directory out, which a move may take along. -/

namespace Overseer.FileTree

/-- Names in a directory differ, each file has its bytes and stands at one location only, so that
none has a second name (a hard link), and relative paths start from a directory. -/
structure Sound (t : FileTree) : Prop where
  distinct : t.root.Distinct
  stored : ∀ l id, t.root.kindAt l = some (.file id) → id < t.contents.size
  alone : ∀ l l' id, t.root.kindAt l = some (.file id) → t.root.kindAt l' = some (.file id) →
    l = l'
  working : t.root.kindAt t.working = some .dir

/-- Names in a directory differ, and each file has its bytes and stands at one location only, so
that none has a second name (a hard link). -/
structure Intact (t : FileTree) : Prop where
  distinct : t.root.Distinct
  stored : ∀ l id, t.root.kindAt l = some (.file id) → id < t.contents.size
  alone : ∀ l l' id, t.root.kindAt l = some (.file id) → t.root.kindAt l' = some (.file id) →
    l = l'

theorem Sound.intact {t : FileTree} (h : t.Sound) : t.Intact := ⟨h.distinct, h.stored, h.alone⟩

/-! ## Bytes -/

theorem bytes_append_self (t : FileTree) {id : Nat} (data : ByteArray)
    (h : id < t.contents.size) : (t.append id data).bytes id = t.bytes id ++ data := by
  simp [bytes, append, h, Array.getElem_modify]

theorem bytes_append_ne (t : FileTree) {id i : Nat} (data : ByteArray) (h : i ≠ id) :
    (t.append id data).bytes i = t.bytes i := by
  simp only [bytes, append, Array.getD_eq_getD_getElem?]
  rw [Array.getElem?_modify, if_neg (Ne.symm h)]

theorem bytes_truncate_self (t : FileTree) (id : Nat) : (t.truncate id).bytes id = .empty := by
  by_cases h : id < t.contents.size <;> simp [bytes, truncate, h, Array.getElem_modify]

theorem bytes_truncate_ne (t : FileTree) {id i : Nat} (h : i ≠ id) :
    (t.truncate id).bytes i = t.bytes i := by
  simp only [bytes, truncate, Array.getD_eq_getD_getElem?]
  rw [Array.getElem?_modify, if_neg (Ne.symm h)]

theorem bytes_create_self (t : FileTree) (l : Location) :
    (t.create l).1.bytes (t.create l).2 = .empty := by
  simp [bytes, create, put]

theorem size_truncate_self (t : FileTree) (id : Nat) : (t.truncate id).size id = 0 :=
  congrArg ByteArray.size (bytes_truncate_self t id)

theorem size_create_self (t : FileTree) (l : Location) : (t.create l).1.size (t.create l).2 = 0 :=
  congrArg ByteArray.size (bytes_create_self t l)

theorem bytes_create_lt (t : FileTree) (l : Location) {id : Nat} (h : id < t.contents.size) :
    (t.create l).1.bytes id = t.bytes id := by
  simp [bytes, create, put, Array.getElem?_push, Nat.ne_of_lt h]

/-- A file made and then written to has just those bytes. -/
theorem contents_create_append (t : FileTree) (l : Location) (data : ByteArray) :
    ((t.create l).1.append (t.create l).2 data).contents = t.contents.push data := by
  apply Array.ext
  · simp [append, create]
  · intro i hi hi'
    simp only [append, create, Array.getElem_modify, Array.getElem_push]
    by_cases h : i < t.contents.size
    · simp [h, Nat.ne_of_gt h]
    · have hlast : i = t.contents.size := by
        rw [Array.size_push] at hi'
        omega
      simp [hlast]

/-! ## What keeps a tree intact -/

namespace Intact

variable {t : FileTree}

theorem append (h : t.Intact) (id : Nat) (data : ByteArray) : (t.append id data).Intact where
  distinct := h.distinct
  stored l i hl := by simpa [FileTree.append] using h.stored l i hl
  alone := h.alone

theorem truncate (h : t.Intact) (id : Nat) : (t.truncate id).Intact where
  distinct := h.distinct
  stored l i hl := by simpa [FileTree.truncate] using h.stored l i hl
  alone := h.alone

/-- What stands at and below a location that was changed, or beside it as before. -/
theorem kindAt_put (h : t.Intact) {d : Location} {a : String} (hd : t.root.kindAt d = some .dir)
    (m : Option Node) {l : Location} {k : Kind} (hl : (t.put (d ++ [a]) m).root.kindAt l = some k) :
    (∃ r x, l = d ++ a :: r ∧ m = some x ∧ x.kindAt r = some k) ∨
      (¬ (d ++ [a]) <+: l ∧ t.root.kindAt l = some k) := by
  by_cases hp : (d ++ [a]) <+: l
  · obtain ⟨r, rfl⟩ := hp
    rw [List.append_assoc, List.singleton_append] at hl ⊢
    rw [Node.kindAt, FileTree.put, Node.get?_alter_below h.distinct d a hd] at hl
    cases m with
    | none => simp at hl
    | some x => exact Or.inl ⟨r, x, rfl, rfl, hl⟩
  · refine Or.inr ⟨hp, ?_⟩
    rwa [FileTree.put, Node.kindAt_alter_beside h.distinct d a hd m hp] at hl

theorem put (h : t.Intact) {d : Location} {a : String} (hd : t.root.kindAt d = some .dir)
    (m : Option Node) (hdistinct : ∀ x, m = some x → x.Distinct)
    (hstored : ∀ x r id, m = some x → x.kindAt r = some (.file id) → id < t.contents.size)
    (halone : ∀ x r r' id, m = some x → x.kindAt r = some (.file id) →
      x.kindAt r' = some (.file id) → r = r')
    (hbeside : ∀ x r l id, m = some x → x.kindAt r = some (.file id) →
      t.root.kindAt l = some (.file id) → (d ++ [a]) <+: l) :
    (t.put (d ++ [a]) m).Intact where
  distinct := h.distinct.alter d a hd m hdistinct
  stored l id hl := by
    rcases h.kindAt_put hd m hl with ⟨r, x, -, hx, hr⟩ | ⟨-, hl⟩
    · exact hstored x r id hx hr
    · exact h.stored l id hl
  alone l l' id hl hl' := by
    rcases h.kindAt_put hd m hl with ⟨r, x, rfl, hx, hr⟩ | ⟨hout, hl⟩ <;>
      rcases h.kindAt_put hd m hl' with ⟨r', x', rfl, hx', hr'⟩ | ⟨hout', hl'⟩
    · cases hx.symm.trans hx'
      rw [halone x r r' id hx hr hr']
    · exact absurd (hbeside x r l' id hx hr hl') hout'
    · exact absurd (hbeside x' r' l id hx' hr' hl) hout
    · exact h.alone l l' id hl hl'

theorem kindAt_remove (h : t.Intact) {d : Location} {a : String}
    (hd : t.root.kindAt d = some .dir) (l : Location) :
    (t.put (d ++ [a]) none).root.kindAt l =
      if (d ++ [a]) <+: l then none else t.root.kindAt l := by
  by_cases hp : (d ++ [a]) <+: l
  · rw [if_pos hp]
    obtain ⟨r, rfl⟩ := hp
    rw [List.append_assoc, List.singleton_append, Node.kindAt, FileTree.put,
      Node.get?_alter_below h.distinct d a hd]
    rfl
  · rw [if_neg hp]
    exact Node.kindAt_alter_beside h.distinct d a hd none hp

theorem remove (h : t.Intact) {d : Location} {a : String} (hd : t.root.kindAt d = some .dir) :
    (t.put (d ++ [a]) none).Intact := by
  apply h.put hd none <;> simp

theorem create (h : t.Intact) {d : Location} {a : String} (hd : t.root.kindAt d = some .dir) :
    (t.create (d ++ [a])).1.Intact := by
  have hgrown : ({ t with contents := t.contents.push .empty } : FileTree).Intact :=
    { distinct := h.distinct
      stored := fun l id hl => by
        have := h.stored l id hl
        simp only [Array.size_push]
        omega
      alone := h.alone }
  have hroot : ∀ r id, (Node.file t.contents.size).kindAt r = some (.file id) →
      r = [] ∧ id = t.contents.size := by
    intro r id hr
    cases r with
    | nil => simpa [Node.kindAt, Node.get?, Node.kind, eq_comm] using hr
    | cons b r => simp [Node.kindAt, Node.get?, Node.entries] at hr
  refine hgrown.put hd (some (.file t.contents.size)) ?_ ?_ ?_ ?_
  · rintro x ⟨⟩
    exact Node.distinct_file _
  · rintro x r id ⟨⟩ hr
    obtain ⟨-, rfl⟩ := hroot r id hr
    simp
  · rintro x r r' id ⟨⟩ hr hr'
    rw [(hroot r id hr).1, (hroot r' id hr').1]
  · rintro x r l id ⟨⟩ hr hl
    obtain ⟨-, rfl⟩ := hroot r id hr
    exact absurd (h.stored l _ hl) (Nat.lt_irrefl _)

/-- Moving what has one name of a directory to another. -/
theorem move (h : t.Intact) {d : Location} {a b : String} {x : Node}
    (hd : t.root.kindAt d = some .dir) (hx : t.root.get? (d ++ [a]) = some x) :
    ((t.put (d ++ [a]) none).put (d ++ [b]) (some x)).Intact := by
  have hbelow : ∀ r id, x.kindAt r = some (.file id) →
      t.root.kindAt (d ++ [a] ++ r) = some (.file id) := by
    intro r id hr
    rw [Node.kindAt, Node.get?_append, hx]
    exact hr
  have hd' : (t.put (d ++ [a]) none).root.kindAt d = some .dir :=
    (Node.kindAt_alter_way h.distinct d a hd none (List.prefix_refl d)).1
  refine (h.remove hd).put hd' (some x) ?_ ?_ ?_ ?_
  · rintro _ ⟨⟩
    exact h.distinct.get? hx
  · rintro _ r id ⟨⟩ hr
    exact h.stored _ id (hbelow r id hr)
  · rintro _ r r' id ⟨⟩ hr hr'
    exact List.append_cancel_left (h.alone _ _ id (hbelow r id hr) (hbelow r' id hr'))
  · rintro _ r l id ⟨⟩ hr hl
    rcases h.kindAt_put hd none hl with ⟨_, _, _, hnone, _⟩ | ⟨hout, hl⟩
    · exact absurd hnone (by simp)
    · exact absurd ⟨r, h.alone _ _ id (hbelow r id hr) hl⟩ hout

end Intact

/-! ## What keeps a tree sound -/

namespace Sound

variable {t : FileTree}

theorem of_intact (h : t.Intact) (hworking : t.root.kindAt t.working = some .dir) : t.Sound :=
  ⟨h.distinct, h.stored, h.alone, hworking⟩

theorem append (h : t.Sound) (id : Nat) (data : ByteArray) : (t.append id data).Sound :=
  of_intact (h.intact.append id data) h.working

/-- Below a location that is no directory there is nothing to work from. -/
theorem not_above_working (h : t.Sound) {l : Location} (hl : t.root.kindAt l ≠ some .dir) :
    ¬ l <+: t.working := by
  rintro ⟨r, hr⟩
  have hwork := h.working
  rw [← hr] at hwork
  by_cases hnil : r = []
  · subst hnil
    rw [List.append_nil] at hwork
    exact hl hwork
  · apply hl
    apply Node.kindAt_of_below hnil
    intro hnone
    simp [Node.kindAt, hnone] at hwork

/-- A change beside the working directory leaves it where it is. -/
theorem working_put (h : t.Sound) {d : Location} {a : String} (hd : t.root.kindAt d = some .dir)
    (hw : ¬ (d ++ [a]) <+: t.working) (m : Option Node) :
    (t.put (d ++ [a]) m).root.kindAt t.working = some .dir := by
  show (t.root.alter (d ++ [a]) fun _ => m).kindAt t.working = some .dir
  rw [Node.kindAt_alter_beside h.distinct d a hd m hw]
  exact h.working

theorem create (h : t.Sound) {d : Location} {a : String} (hd : t.root.kindAt d = some .dir)
    (hfree : t.root.kindAt (d ++ [a]) = none) : (t.create (d ++ [a])).1.Sound :=
  of_intact (h.intact.create hd)
    (h.working_put hd (h.not_above_working (by simp [hfree])) (some (.file t.contents.size)))

end Sound

end Overseer.FileTree
