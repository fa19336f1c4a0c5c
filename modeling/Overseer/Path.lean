/-! Paths as text: the pieces between slashes, and what counts as the file name, its
stem and extension, and the parent. Empty pieces, and a dot that is not the first
piece, name nothing. -/

namespace Overseer.Path

/-- The text between slashes, in order; there is always at least one piece. -/
def pieces : List Char → List (List Char)
  | [] => [[]]
  | c :: r =>
    if c = '/' then [] :: pieces r
    else match pieces r with
      | [] => [[c]]
      | p :: ps => (c :: p) :: ps

/-- Puts slashes between pieces. -/
def glue : List (List Char) → List Char
  | [] => []
  | [p] => p
  | p :: ps => p ++ '/' :: glue ps

theorem pieces_ne_nil (s : List Char) : pieces s ≠ [] := by
  cases s with
  | nil => simp [pieces]
  | cons c r => unfold pieces; split <;> (try split) <;> simp

theorem glue_pieces (s : List Char) : glue (pieces s) = s := by
  induction s with
  | nil => rfl
  | cons c r ih =>
    unfold pieces
    split
    · next h => subst h; cases hp : pieces r with
      | nil => exact absurd hp (pieces_ne_nil r)
      | cons p ps => rw [hp] at ih; simp [glue, ih]
    · cases hp : pieces r with
      | nil => exact absurd hp (pieces_ne_nil r)
      | cons p ps =>
        rw [hp] at ih
        cases ps with
        | nil => simpa [glue] using ih
        | cons q qs => simpa [glue] using ih

/-- Drops trailing pieces that name nothing; pieces are listed last first. -/
def trimLast : List (List Char) → List (List Char)
  | [] => []
  | [p] => [p]
  | p :: q :: r => if p = [] ∨ p = ['.'] then trimLast (q :: r) else p :: q :: r

/-- The pieces up to the last one that names something, last first. -/
def significant (s : List Char) : List (List Char) := trimLast (pieces s).reverse

def isAbsolute (s : List Char) : Bool := s.head? == some '/'

/-- The last component, unless it is a root, a dot or two dots. -/
def fileName? (s : List Char) : Option (List Char) :=
  match significant s with
  | [] => none
  | p :: r => if p = [] ∨ p = ['.', '.'] ∨ (p = ['.'] ∧ r = []) then none else some p

/-- What is before the last component; nothing is before a root or an empty path. -/
def parent? (s : List Char) : Option (List Char) :=
  match significant s with
  | [] => none
  | [p] => if p = [] then none else some []
  | _ :: r =>
    match trimLast r with
    | [[]] => some ['/']
    | r' => some (glue r'.reverse)

/-- Splits a name at its last dot; a name without a dot, or whose only dot leads, is all stem. -/
def splitExtension (name : List Char) : List Char × Option (List Char) :=
  let extension := (name.reverse.takeWhile (· ≠ '.')).reverse
  match name.reverse.dropWhile (· ≠ '.') with
  | [] => (name, none)
  | [_] => (name, none)
  | _ :: stem => (stem.reverse, some extension)

def fileStem? (s : List Char) : Option (List Char) :=
  (fileName? s).map fun n => (splitExtension n).1

def extension? (s : List Char) : Option (List Char) :=
  (fileName? s).bind fun n => (splitExtension n).2

/-- `b` below `a`, or `b` alone if it is absolute. -/
def join (a b : List Char) : List Char :=
  if isAbsolute b then b
  else if a = [] ∨ a.getLast? = some '/' then a ++ b
  else a ++ '/' :: b

/-- Replaces the file name, or adds one where there is none. -/
def withFileName (s name : List Char) : List Char :=
  match fileName? s with
  | some _ => join ((parent? s).getD []) name
  | none => join s name

end Overseer.Path
