import Overseer.Text.Blank
import Overseer.Text.Digits
import Overseer.Text.Utf8

/-! Fields of a line read back. `words_fields`: the words of fields with blanks before them are the
fields; `unsigned?_toDigits` and `signed?_integer`: a numeral gives the number it was written
for. -/

namespace Overseer.Text

theorem decodeUtf8?_toUTF8 (s : String) : decodeUtf8? s.toUTF8 = some s := by
  unfold decodeUtf8? String.fromUTF8?
  rw [String.toUTF8_eq_toByteArray, dif_pos s.isValidUTF8]
  rfl

/-! ## Words -/

theorem wordsFrom_blank (word : List Char) {c : Char} (hc : isBlank c = true) (s : List Char) :
    wordsFrom word (c :: s) = wordsFrom word [] ++ words s := by
  cases word with
  | nil => simp [wordsFrom, hc, words]
  | cons d word => simp [wordsFrom, hc, words]

/-- A run without blanks is taken as a whole. -/
theorem wordsFrom_solid (word : List Char) {w : List Char} (hw : ∀ c ∈ w, isBlank c = false)
    (s : List Char) : wordsFrom word (w ++ s) = wordsFrom (w.reverse ++ word) s := by
  induction w generalizing word with
  | nil => rfl
  | cons c w ih =>
    rw [List.cons_append, wordsFrom, if_neg (by simp [hw c List.mem_cons_self]),
      ih _ fun d hd => hw d (List.mem_cons_of_mem _ hd)]
    simp

theorem words_of_blank {s : List Char} (h : ∀ c ∈ s, isBlank c = true) : words s = [] := by
  induction s with
  | nil => rfl
  | cons c s ih =>
    rw [words_cons_blank c s (h c List.mem_cons_self)]
    exact ih fun d hd => h d (List.mem_cons_of_mem _ hd)

private theorem modifyHead_nil (pieces : List (List Char)) :
    pieces.modifyHead ([] ++ ·) = pieces := by
  cases pieces <;> rfl

theorem wordsFrom_eq (word s : List Char) :
    wordsFrom word s =
      ((s.splitOnP isBlank).modifyHead (word.reverse ++ ·)).filter (· ≠ []) := by
  induction s generalizing word with
  | nil => cases word <;> simp [wordsFrom]
  | cons c s ih =>
    rw [wordsFrom, List.splitOnP_cons_eq_if_modifyHead]
    cases hc : isBlank c with
    | true =>
      -- A blank ends the word in progress, and what follows starts with none.
      rw [if_pos rfl, if_pos rfl, ih [], List.reverse_nil, modifyHead_nil]
      cases word <;> simp
    | false =>
      rw [if_neg (by simp), if_neg (by simp), ih, List.modifyHead_modifyHead]
      congr 2
      funext piece
      simp

/-- Words are what stands between blanks, where that is not nothing. -/
theorem words_eq (s : List Char) : words s = (s.splitOnP isBlank).filter (· ≠ []) := by
  rw [words, wordsFrom_eq, List.reverse_nil, modifyHead_nil]

/-- Fields, each with a blank before it, and blanks at the end. -/
theorem words_fields {fields : List (List Char)} {ending : List Char}
    (h : ∀ f ∈ fields, f ≠ [] ∧ ∀ c ∈ f, isBlank c = false)
    (hending : ∀ c ∈ ending, isBlank c = true) :
    words (fields.flatMap (' ' :: ·) ++ ending) = fields := by
  induction fields with
  | nil => exact words_of_blank hending
  | cons f fields ih =>
    obtain ⟨hne, hsolid⟩ := h f List.mem_cons_self
    have hrest := ih fun g hg => h g (List.mem_cons_of_mem _ hg)
    -- After the field comes a blank or nothing.
    have hstop : wordsFrom f.reverse (fields.flatMap (' ' :: ·) ++ ending) =
        wordsFrom f.reverse [] ++ words (fields.flatMap (' ' :: ·) ++ ending) := by
      cases hs : fields.flatMap (' ' :: ·) ++ ending with
      | nil => exact (List.append_nil _).symm
      | cons c s =>
        have hc : isBlank c = true := by
          cases fields with
          | nil => exact hending c (by rw [show ending = c :: s from hs]; exact List.mem_cons_self)
          | cons g fields =>
            obtain ⟨rfl, -⟩ := List.cons.inj hs
            rfl
        rw [wordsFrom_blank _ hc, words_cons_blank c s hc]
    have hword : wordsFrom f.reverse [] = [f] := by
      rw [wordsFrom, if_neg (by simpa using hne), List.reverse_reverse]
    rw [List.flatMap_cons, List.append_assoc, List.cons_append, words_cons_blank _ _ rfl, words,
      wordsFrom_solid _ hsolid, List.append_nil, hstop, hword, hrest]
    rfl

/-! ## Numerals -/

theorem isDigit_of_mem_toDigits {n : Nat} {c : Char} (h : c ∈ Nat.toDigits 10 n) :
    isDigit c = true := by
  have hdigit := Nat.isDigit_of_mem_toDigits (by decide) (by decide) h
  simp only [Char.isDigit, Bool.and_eq_true, decide_eq_true_eq] at hdigit
  simp only [isDigit, Bool.and_eq_true, decide_eq_true_eq]
  exact hdigit

theorem isBlank_of_isDigit {c : Char} (h : isDigit c = true) : isBlank c = false := by
  simp only [isDigit, Bool.and_eq_true, decide_eq_true_eq] at h
  have hlow : 48 ≤ c.toNat := UInt32.le_iff_toNat_le.mp h.1
  have hhigh : c.toNat ≤ 57 := UInt32.le_iff_toNat_le.mp h.2
  simp only [isBlank, Bool.or_eq_false_iff, Bool.and_eq_false_iff, decide_eq_false_iff_not,
    beq_eq_false_iff_ne]
  omega

theorem digitsValue_cons (acc : Nat) (c : Char) (s : List Char) :
    digitsValue acc (c :: s) = digitsValue (acc * 10 + digitValue c) s := by
  rfl

theorem digitsValue_eq (s : List Char) (acc : Nat) :
    digitsValue acc s = Nat.ofDigitChars 10 s acc := by
  induction s generalizing acc with
  | nil => rfl
  | cons c s ih =>
    rw [digitsValue_cons, ih, Nat.mul_comm, Nat.ofDigitChars_cons, digitValue]

theorem natural?_toDigits (n : Nat) : natural? (Nat.toDigits 10 n) = some n := by
  have hdigits : (Nat.toDigits 10 n).all isDigit = true :=
    List.all_eq_true.mpr fun _ hc => isDigit_of_mem_toDigits hc
  have hne : (Nat.toDigits 10 n).isEmpty = false := by simp [Nat.toDigits_ne_nil]
  rw [natural?, hdigits, hne, digitsValue_eq, Nat.ofDigitChars_ten_toDigits]
  rfl

/-- A numeral starts with a digit, and so with no sign. -/
theorem toDigits_unsigned {n : Nat} {c : Char} {r : List Char} (h : Nat.toDigits 10 n = c :: r) :
    c ≠ '+' ∧ c ≠ '-' := by
  have hc : isDigit c = true := isDigit_of_mem_toDigits (by rw [h]; exact List.mem_cons_self)
  constructor
  · rintro rfl
    cases hc
  · rintro rfl
    cases hc

theorem unsigned?_toDigits {bound n : Nat} (h : n < bound) :
    unsigned? bound (Nat.toDigits 10 n) = some n := by
  unfold unsigned?
  dsimp only
  split
  · next r hr => exact absurd rfl (toDigits_unsigned hr).1
  · rw [natural?_toDigits, Option.filter_some_pos (by simpa using h)]

theorem unsigned32?_toDigits (n : UInt32) : unsigned32? (Nat.toDigits 10 n.toNat) = some n := by
  rw [unsigned32?, unsigned?_toDigits n.toNat_lt_size, Option.map_some, UInt32.ofNat_toNat]

theorem unsigned64?_toDigits (n : UInt64) : unsigned64? (Nat.toDigits 10 n.toNat) = some n := by
  rw [unsigned64?, unsigned?_toDigits n.toNat_lt_size, Option.map_some, UInt64.ofNat_toNat]

/-- The numeral of an integer. -/
def integer (i : Int) : List Char :=
  if i < 0 then '-' :: Nat.toDigits 10 i.natAbs else Nat.toDigits 10 i.natAbs

theorem signed?_integer (i : Int64) : signed? (integer i.toInt) = some i.toInt := by
  have hlow := i.le_toInt
  have hhigh := i.toInt_lt
  unfold integer
  split
  · next hneg =>
    have hbound : i.toInt.natAbs ≤ signBit := by
      unfold signBit
      omega
    rw [signed?, natural?_toDigits, Option.filter_some_pos (by simpa using hbound)]
    show some (-(i.toInt.natAbs : Int)) = some i.toInt
    congr 1
    omega
  · next hpos =>
    have hbound : i.toInt.natAbs < signBit := by
      unfold signBit
      omega
    unfold signed?
    split
    · next r hr => exact absurd rfl (toDigits_unsigned hr).2
    · next r hr => exact absurd rfl (toDigits_unsigned hr).1
    · rw [natural?_toDigits, Option.filter_some_pos (by simpa using hbound)]
      show some (i.toInt.natAbs : Int) = some i.toInt
      congr 1
      omega

theorem signed?_lt {s : List Char} {i : Int} (h : signed? s = some i) :
    i < signBit := by
  have hpos : 0 < signBit := by decide
  unfold signed? at h
  split at h
  all_goals
    obtain ⟨i, hi, rfl⟩ := Option.map_eq_some_iff.mp h
    obtain ⟨n, hn, hcast⟩ := Option.bind_eq_some_iff.mp hi
    obtain rfl : (n : Int) = i := Option.some.inj hcast
    rw [Option.filter_eq_some_iff, decide_eq_true_eq] at hn
    omega

end Overseer.Text
