import Overseer.Text.Octets

/-! Patterns of the shell: a star for any text, a question mark for any character, brackets
for one of some. Quoted characters stand for themselves. -/

namespace Overseer.Shell

open Text (Octets)

/-- A character with whether it was quoted. -/
abbrev Marked := Char × Bool

/-- One place of a pattern. -/
inductive Piece where
  | anyText
  | oneOf (p : Char → Bool)

/-- The characters of brackets up to the closing one, which may also stand first, with what
follows them. -/
def readSet (first : Bool) : List Marked → Option (List Marked × List Marked)
  | [] => none
  | (c, quoted) :: r =>
    if c = ']' ∧ !quoted ∧ !first then some ([], r)
    else (readSet false r).map fun (set, rest) => ((c, quoted) :: set, rest)

/-- Whether a character is among single ones and ranges. -/
def inSet (x : Char) : List Marked → Bool
  | (a, _) :: ('-', false) :: (b, _) :: r => (a ≤ x && x ≤ b) || inSet x r
  | (a, _) :: r => a == x || inSet x r
  | [] => false

theorem length_readSet {first : Bool} {s set rest : List Marked}
    (h : readSet first s = some (set, rest)) : rest.length ≤ s.length := by
  induction s generalizing first set rest with
  | nil => simp [readSet] at h
  | cons x r ih =>
    rw [readSet] at h
    split at h
    · simp only [Option.some.injEq, Prod.mk.injEq] at h
      simp [← h.2]
    · obtain ⟨⟨set', rest'⟩, hr, h⟩ := Option.map_eq_some_iff.1 h
      simp only [Prod.mk.injEq] at h
      have := ih hr
      simp [← h.2]
      omega

/-- Takes off the sign that turns a set of characters into all others. -/
def afterNegation : List Marked → Bool × List Marked
  | ('!', false) :: r => (true, r)
  | r => (false, r)

theorem length_afterNegation (s : List Marked) : (afterNegation s).2.length ≤ s.length := by
  unfold afterNegation
  split <;> simp

/-- The places of a pattern in order. -/
def compile (s : List Marked) : List Piece :=
  match s with
  | [] => []
  | (c, true) :: r => .oneOf (· == c) :: compile r
  | ('*', false) :: r => .anyText :: compile r
  | ('?', false) :: r => .oneOf (fun _ => true) :: compile r
  | ('[', false) :: r =>
    match h : readSet true (afterNegation r).2 with
    | some (set, rest) =>
      have := length_readSet h
      have := length_afterNegation r
      .oneOf (fun x => (afterNegation r).1 != inSet x set) :: compile rest
    | none => .oneOf (· == '[') :: compile r
  | (c, false) :: r => .oneOf (· == c) :: compile r
termination_by s.length

/-- Whether a text is of a pattern. -/
def matchPieces : List Piece → Octets → Bool
  | [], s => s.isEmpty
  | .anyText :: ps, s => anywhere (matchPieces ps) s
  | .oneOf p :: ps, c :: s => p c && matchPieces ps s
  | .oneOf _ :: _, [] => false
where
  /-- Whether some end of a text has a property. -/
  anywhere (p : Octets → Bool) : Octets → Bool
    | [] => p []
    | c :: s => p (c :: s) || anywhere p s

def fits (pattern : List Marked) (s : Octets) : Bool := matchPieces (compile pattern) s

/-- The text without the start, or the end, that a pattern fits: the longest or the shortest
such part, if there is one. -/
def removeStart (pattern : List Marked) (longest : Bool) (s : Octets) : Octets :=
  let cuts := (List.range (s.length + 1)).filter fun n => fits pattern (s.take n)
  match if longest then cuts.getLast? else cuts.head? with
  | some n => s.drop n
  | none => s

def removeEnd (pattern : List Marked) (longest : Bool) (s : Octets) : Octets :=
  let cuts := (List.range (s.length + 1)).filter fun n => fits pattern (s.drop n)
  match if longest then cuts.head? else cuts.getLast? with
  | some n => s.take n
  | none => s

end Overseer.Shell
