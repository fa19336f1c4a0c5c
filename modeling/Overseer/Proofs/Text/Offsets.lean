/-! Places in a text as numbers of bytes, the way a reader of UTF-8 has them. A text can be cut only
between two characters: `cutAt?_append` says that the place after some characters is one, and
`offset?_first` and `lastOffset?_last` say which place a character is found at. -/

namespace Overseer.Text

/-- How many bytes characters take. -/
def byteLength : List Char → Nat
  | [] => 0
  | c :: s => c.utf8Size + byteLength s

/-- Both parts of a text around a place, if that is neither within a character nor past the end. -/
def cutAt? (place : Nat) (s : List Char) : Option (List Char × List Char) :=
  if place = 0 then some ([], s)
  else match s with
    | [] => none
    | c :: s =>
      if place < c.utf8Size then none
      else (cutAt? (place - c.utf8Size) s).map fun (before, after) => (c :: before, after)

/-- What stands from one place to another, if the text can be cut there and they are in order. -/
def between? (start stop : Nat) (s : List Char) : Option (List Char) :=
  (cutAt? stop s).bind fun (before, _) => (cutAt? start before).map (·.2)

/-- The place of the first such character. -/
def offset? (c : Char) (s : List Char) : Option Nat :=
  (s.findIdx? (· == c)).map fun i => byteLength (s.take i)

/-- The place of the last such character. -/
def lastOffset? (c : Char) (s : List Char) : Option Nat :=
  (s.reverse.findIdx? (· == c)).map fun i => byteLength (s.take (s.length - 1 - i))

theorem byteLength_append (a b : List Char) :
    byteLength (a ++ b) = byteLength a + byteLength b := by
  induction a with
  | nil => simp [byteLength]
  | cons c a ih => simp [byteLength, ih, Nat.add_assoc]

/-! ## Cutting -/

theorem cutAt?_append (a b : List Char) : cutAt? (byteLength a) (a ++ b) = some (a, b) := by
  induction a with
  | nil =>
    unfold cutAt?
    rfl
  | cons c a ih =>
    have hpos := c.utf8Size_pos
    have hplace : byteLength (c :: a) - c.utf8Size = byteLength a := by
      simp only [byteLength]
      omega
    rw [List.cons_append, cutAt?, if_neg (by simp only [byteLength]; omega)]
    dsimp only
    rw [if_neg (by simp only [byteLength]; omega), hplace, ih]
    rfl

theorem cutAt?_past {s : List Char} {place : Nat} (h : byteLength s < place) :
    cutAt? place s = none := by
  induction s generalizing place with
  | nil => rw [cutAt?, if_neg (by omega)]
  | cons c s ih =>
    simp only [byteLength] at h
    rw [cutAt?, if_neg (by omega)]
    dsimp only
    split
    · rfl
    · rw [ih (by omega)]
      rfl

theorem between?_append (a b c : List Char) :
    between? (byteLength a) (byteLength (a ++ b)) (a ++ b ++ c) = some b := by
  rw [between?, cutAt?_append, Option.bind_some]
  dsimp only
  rw [cutAt?_append]
  rfl

/-- Nothing stands between two places that are the wrong way round. -/
theorem between?_reversed (a b : List Char) {start : Nat} (h : byteLength a < start) :
    between? start (byteLength a) (a ++ b) = none := by
  rw [between?, cutAt?_append, Option.bind_some]
  dsimp only
  rw [cutAt?_past h]
  rfl

/-! ## Finding -/

theorem findIdx?_first {c : Char} {a : List Char} (h : c ∉ a) (b : List Char) :
    (a ++ c :: b).findIdx? (· == c) = some a.length := by
  have hnone : a.findIdx? (· == c) = none := by
    rw [List.findIdx?_eq_none_iff]
    intro d hd
    simpa using ne_of_mem_of_not_mem hd h
  rw [List.findIdx?_append, hnone, List.findIdx?_cons]
  simp

theorem findIdx?_last {c : Char} {b : List Char} (h : c ∉ b) (a : List Char) :
    (a ++ c :: b).reverse.findIdx? (· == c) = some b.length := by
  have hreverse : (a ++ c :: b).reverse = b.reverse ++ c :: a.reverse := by simp
  rw [hreverse, findIdx?_first (by simpa using h), List.length_reverse]

theorem findIdx?_absent {c : Char} {s : List Char} (h : c ∉ s) :
    s.findIdx? (· == c) = none ∧ s.reverse.findIdx? (· == c) = none := by
  have hne : ∀ d ∈ s, (d == c) = false := fun d hd => by simpa using ne_of_mem_of_not_mem hd h
  constructor
  · exact List.findIdx?_eq_none_iff.mpr hne
  · exact List.findIdx?_eq_none_iff.mpr fun d hd => hne d (List.mem_reverse.mp hd)

theorem offset?_first {c : Char} {a : List Char} (h : c ∉ a) (b : List Char) :
    offset? c (a ++ c :: b) = some (byteLength a) := by
  rw [offset?, findIdx?_first h, Option.map_some, List.take_left]

theorem lastOffset?_last {c : Char} {b : List Char} (h : c ∉ b) (a : List Char) :
    lastOffset? c (a ++ c :: b) = some (byteLength a) := by
  have hplace : (a ++ c :: b).length - 1 - b.length = a.length := by
    simp only [List.length_append, List.length_cons]
    omega
  rw [lastOffset?, findIdx?_last h, Option.map_some, hplace, List.take_left]

end Overseer.Text
