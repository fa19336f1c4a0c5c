import Overseer.Proofs.Path.Pieces

/-! The names that a path goes through. Two paths with one start and the same names are the same
path, however they are written. `Child` says that a path is one to a name in a directory; those of
different names are different (`Child.names_ne`). -/

namespace Overseer.Path

/-- Pieces that name something; a piece without text or with one dot does not. -/
def namesOf (ps : List (List Char)) : List (List Char) := ps.filter fun p => p ≠ [] ∧ p ≠ ['.']

/-- The names that a path goes through, two dots among them. -/
def names (s : List Char) : List (List Char) := namesOf (pieces s)

theorem namesOf_append (ps qs : List (List Char)) :
    namesOf (ps ++ qs) = namesOf ps ++ namesOf qs :=
  List.filter_append ps qs

theorem namesOf_blank {ps : List (List Char)} (h : ∀ p ∈ ps, p = [] ∨ p = ['.']) :
    namesOf ps = [] := by
  refine List.filter_eq_nil_iff.mpr fun p hp => ?_
  rcases h p hp with rfl | rfl <;> simp

/-- The file name is one of the pieces. -/
theorem mem_pieces_of_fileName? {s a : List Char} (h : fileName? s = some a) : a ∈ pieces s := by
  obtain ⟨gone, hgone, -⟩ := trimLast_suffix (pieces s).reverse
  rw [fileName?] at h
  cases hs : significant s with
  | nil => simp [hs] at h
  | cons p r =>
    obtain rfl : p = a := by
      simp only [hs, Option.ite_none_left_eq_some, Option.some.injEq] at h
      exact h.2
    rw [significant] at hs
    rw [← List.mem_reverse, hgone, hs]
    simp

/-- A path to `name` in the directory at the path `dir`: one that has the pieces of `dir`, less some
that name nothing, before its last. -/
structure Child (dir name path : List Char) : Prop where
  below : ∃ ps gone, pieces path = ps ++ [name] ∧ pieces dir = ps ++ gone ∧
    ∀ p ∈ gone, p = [] ∨ p = ['.']
  start : isAbsolute path = isAbsolute dir
  ne_nil : name ≠ []
  ne_dot : name ≠ ['.']
  ne_dots : name ≠ ['.', '.']

namespace Child

variable {dir a b path path' : List Char}

theorem names_eq (h : Child dir a path) : names path = names dir ++ [a] := by
  obtain ⟨ps, gone, hpath, hdir, hgone⟩ := h.below
  have ha : namesOf [a] = [a] := by simp [namesOf, h.ne_nil, h.ne_dot]
  calc
    names path = namesOf ps ++ namesOf [a] := by rw [names, hpath, namesOf_append]
    _ = namesOf ps ++ namesOf gone ++ [a] := by rw [ha, namesOf_blank hgone, List.append_nil]
    _ = names dir ++ [a] := by rw [names, hdir, namesOf_append]

theorem fileName?_eq (h : Child dir a path) : fileName? path = some a := by
  obtain ⟨ps, gone, hpath, -, -⟩ := h.below
  exact fileName?_of_pieces hpath h.ne_nil h.ne_dot h.ne_dots

theorem names_ne (h : Child dir a path) (h' : Child dir b path') (hne : a ≠ b) :
    names path ≠ names path' := by
  intro he
  rw [h.names_eq, h'.names_eq] at he
  exact hne (List.cons.inj (List.append_cancel_left he)).1

end Child

end Overseer.Path
