/-! Blank characters (the Unicode property White_Space), trimming and words.
A word is a maximal run of characters that are not blank. -/

namespace Overseer.Text

/-- The 25 characters with the property White_Space. -/
def isBlank (c : Char) : Bool :=
  let n := c.toNat
  (0x9 ≤ n && n ≤ 0xD) || n == 0x20 || n == 0x85 || n == 0xA0 || n == 0x1680 ||
    (0x2000 ≤ n && n ≤ 0x200A) || n == 0x2028 || n == 0x2029 || n == 0x202F ||
    n == 0x205F || n == 0x3000

def trimLeft (s : List Char) : List Char := s.dropWhile isBlank

def trimRight (s : List Char) : List Char := (trimLeft s.reverse).reverse

def trim (s : List Char) : List Char := trimRight (trimLeft s)

theorem trimLeft_eq_nil_iff (s : List Char) : trimLeft s = [] ↔ ∀ c ∈ s, isBlank c = true := by
  induction s with
  | nil => simp [trimLeft]
  | cons c r ih =>
    by_cases h : isBlank c = true
    · rw [show trimLeft (c :: r) = trimLeft r by simp [trimLeft, h], ih]
      simp [h]
    · simp [trimLeft, h]

/-- Collects words from the right; `word` is the run in progress, reversed. -/
def wordsFrom (word : List Char) : List Char → List (List Char)
  | [] => if word.isEmpty then [] else [word.reverse]
  | c :: r =>
    if isBlank c then
      if word.isEmpty then wordsFrom [] r else word.reverse :: wordsFrom [] r
    else wordsFrom (c :: word) r

def words (s : List Char) : List (List Char) := wordsFrom [] s

theorem words_cons_blank (c : Char) (s : List Char) (h : isBlank c = true) :
    words (c :: s) = words s := by
  simp [words, wordsFrom, h]

end Overseer.Text
