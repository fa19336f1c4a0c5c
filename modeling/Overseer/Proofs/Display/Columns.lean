import Mathlib.Algebra.GroupWithZero.Nat
import Mathlib.Data.List.Chain
import Overseer.Display.Truncate

/-! The columns of a text, character by character. Each character adds what it takes before the text
that follows it (`textWidth_eq`). In an `Independent` text none minds what follows.

The last section has all that results about cut texts need of the measure: an independent text takes
the columns of its characters and one for each control character, and an ellipsis at the end of any
text takes one. The proofs about cutting use nothing else of the tables and rules. -/

namespace Overseer.Display

/-! ## From the end of a text -/

/-- What a text begins, seen from the character before it. -/
def aheadOf : List Char → Ahead
  | [] => {}
  | c :: r => (step (aheadOf r) c).2

/-- The columns that the characters of a text add up to, each before what follows it. -/
def columns : List Char → Int
  | [] => 0
  | c :: r => columns r + (step (aheadOf r) c).1

/-- A text is read backwards; `rest` is what has been read of it. -/
theorem columnsFrom_reversed (q rest : List Char) :
    columnsFrom (aheadOf rest) (columns rest) q = columns (q.reverse ++ rest) := by
  induction q generalizing rest with
  | nil => rfl
  | cons c q ih =>
    rw [List.reverse_cons, List.append_assoc]
    exact ih (c :: rest)

theorem textWidth_eq (s : List Char) : textWidth s = (columns s).toNat := by
  have h := columnsFrom_reversed s.reverse []
  rw [List.reverse_reverse, List.append_nil] at h
  exact congrArg Int.toNat h

section
variable {q : List Char} (hq : aheadOf q = {})
include hq

/-- A text that begins nothing is not seen from before it. -/
theorem aheadOf_append (p : List Char) : aheadOf (p ++ q) = aheadOf p := by
  induction p with
  | nil => exact hq
  | cons c p ih => rw [List.cons_append, aheadOf, ih, aheadOf]

theorem columns_append (p : List Char) : columns (p ++ q) = columns p + columns q := by
  induction p with
  | nil => simp [columns]
  | cons c p ih =>
    rw [List.cons_append, columns, ih, aheadOf_append hq, columns]
    omega

end

/-! ## Characters that do not mind each other -/

/-- Before `d`, `c` takes what it takes alone and begins what it begins alone. -/
def Apart (c d : Char) : Prop := step (step {} d).2 c = step {} c

/-- No character of the text minds the next one. -/
def Independent (s : List Char) : Prop := s.IsChain Apart

instance (c d : Char) : Decidable (Apart c d) := inferInstanceAs (Decidable (_ = _))

instance (s : List Char) : Decidable (Independent s) :=
  inferInstanceAs (Decidable (s.IsChain Apart))

theorem fst_step_start (c : Char) : (step {} c).1 = baseWidth c := by
  by_cases h : c.toNat ≤ 0xA0
  · have hone : baseWidth c = 1 := by
      rw [baseWidth]
      exact if_pos (by omega)
    rw [hone, step]
    simp only [reduceCtorEq, Bool.false_eq_true, ↓reduceIte, decide_false, Bool.false_and,
      Bool.and_false, h]
    split
    · rfl
    · rfl
  · simp [step, h, Ahead.isPlain, alone]

theorem step_of_independent {c : Char} {r : List Char} (h : Independent (c :: r)) :
    step (aheadOf r) c = step {} c := by
  induction r generalizing c with
  | nil => rfl
  | cons d r ih =>
    obtain ⟨hcd, hrest⟩ := List.isChain_cons_cons.mp h
    rw [aheadOf, ih hrest]
    exact hcd

theorem columns_of_independent {s : List Char} (h : Independent s) :
    columns s = (s.map baseWidth).sum := by
  induction s with
  | nil => rfl
  | cons c r ih =>
    rw [columns, step_of_independent h, fst_step_start, ih h.tail, List.map_cons, List.sum_cons]
    omega

/-! ## Characters counted one by one -/

theorem charWidth?_of_control {c : Char} (h : isControl c = true) : charWidth? c = none := by
  rw [charWidth?, if_pos h]

theorem charWidth?_of_plain {c : Char} (h : isControl c = false) :
    charWidth? c = some (baseWidth c) := by
  rw [charWidth?, if_neg (Bool.eq_false_iff.mp h)]

theorem baseWidth_of_control {c : Char} (h : isControl c = true) : baseWidth c = 1 := by
  have hlow : c.toNat < 0xA1 := by
    simp only [isControl, Bool.or_eq_true, Bool.and_eq_true, decide_eq_true_eq] at h
    omega
  rw [baseWidth]
  exact if_pos hlow

/-- The columns of single characters added up; control characters have none. -/
def countedWidth (s : List Char) : Nat := (s.map fun c => (charWidth? c).getD 0).sum

theorem countedWidth_cons (c : Char) (r : List Char) :
    countedWidth (c :: r) = (charWidth? c).getD 0 + countedWidth r := by
  rw [countedWidth, List.map_cons, List.sum_cons, countedWidth]

theorem baseWidth_eq (c : Char) :
    baseWidth c = (charWidth? c).getD 0 + if isControl c then 1 else 0 := by
  cases h : isControl c with
  | true =>
    rw [charWidth?_of_control h, baseWidth_of_control h]
    rfl
  | false =>
    rw [charWidth?_of_plain h]
    rfl

theorem sum_baseWidth (s : List Char) :
    (s.map baseWidth).sum = countedWidth s + s.countP isControl := by
  induction s with
  | nil => rfl
  | cons c r ih =>
    rw [List.map_cons, List.sum_cons, ih, baseWidth_eq, countedWidth_cons, List.countP_cons]
    omega

/-! ## What a cut rests on -/

/-- Where no character minds the next one, a text takes the columns of its characters, and one for
each control character. -/
theorem textWidth_of_independent {s : List Char} (h : Independent s) :
    textWidth s = countedWidth s + s.countP isControl := by
  rw [textWidth_eq, columns_of_independent h, Int.toNat_natCast, sum_baseWidth]

theorem textWidth_of_plain {s : List Char} (h : Independent s)
    (hplain : ∀ c ∈ s, isControl c = false) : textWidth s = countedWidth s := by
  have hnone : s.countP isControl = 0 :=
    List.countP_eq_zero.mpr fun c hc => Bool.eq_false_iff.mp (hplain c hc)
  rw [textWidth_of_independent h, hnone, Nat.add_zero]

theorem Independent.of_prefix {p s : List Char} (h : Independent s) (hp : p <+: s) :
    Independent p :=
  h.prefix hp

/-- An ellipsis takes one column, whatever is before it. -/
theorem columns_append_ellipsis (p : List Char) : columns (p ++ [ellipsis]) = columns p + 1 := by
  have hplain : aheadOf [ellipsis] = {} := by decide +kernel
  have hone : columns [ellipsis] = 1 := by decide +kernel
  rw [columns_append hplain, hone]

theorem textWidth_append_ellipsis_le_iff {n : Nat} (h : 1 ≤ n) (p : List Char) :
    textWidth (p ++ [ellipsis]) ≤ n ↔ textWidth p < n := by
  rw [textWidth_eq, textWidth_eq, columns_append_ellipsis]
  omega

end Overseer.Display
