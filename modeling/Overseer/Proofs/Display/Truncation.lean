import Overseer.Proofs.Display.Columns

/-! Text cut to a number of columns. What is left is the longest beginning that keeps within them
when its characters are counted one by one (`kept_longest`), and an ellipsis. `truncate_bounded`:
the columns are enough for the result if the cut counts what the text takes; it counts nothing for
control characters. -/

namespace Overseer.Display

/-! ## What is left of a text -/

/-- The characters before the first that does not keep within `room`, counted from `used`. -/
def keptFrom (room used : Nat) : List Char → List Char
  | [] => []
  | c :: r =>
    let used' := used + (charWidth? c).getD 0
    if room < used' then [] else c :: keptFrom room used' r

/-- What a cut to so many columns leaves of a text. -/
def kept (s : List Char) (columns : Nat) : List Char := keptFrom (columns - 1) 0 s

variable {room used : Nat} {s : List Char}

theorem keptFrom_isPrefix (room used : Nat) (s : List Char) : keptFrom room used s <+: s := by
  induction s generalizing used with
  | nil => exact List.prefix_refl []
  | cons c r ih =>
    rw [keptFrom]
    split
    · exact List.nil_prefix
    · exact List.cons_prefix_cons.mpr ⟨rfl, ih _⟩

theorem countedWidth_keptFrom (h : used ≤ room) (s : List Char) :
    used + countedWidth (keptFrom room used s) ≤ room := by
  induction s generalizing used with
  | nil => exact h
  | cons c r ih =>
    rw [keptFrom]
    split
    · exact h
    · next hfits =>
      have := ih (Nat.le_of_not_lt hfits)
      rw [countedWidth_cons]
      omega

/-- No longer beginning keeps within the room. -/
theorem prefix_keptFrom {q : List Char} (hq : q <+: s) (hfits : used + countedWidth q ≤ room) :
    q <+: keptFrom room used s := by
  induction s generalizing used q with
  | nil => exact hq
  | cons c r ih =>
    cases q with
    | nil => exact List.nil_prefix
    | cons d q =>
      obtain ⟨rfl, hrest⟩ := List.cons_prefix_cons.mp hq
      rw [countedWidth_cons] at hfits
      rw [keptFrom, if_neg (by omega)]
      exact List.cons_prefix_cons.mpr ⟨rfl, ih hrest (by omega)⟩

theorem cutFrom_eq (room used : Nat) (s : List Char) :
    cutFrom room used s =
      if keptFrom room used s = s then s else keptFrom room used s ++ [ellipsis] := by
  induction s generalizing used with
  | nil => rfl
  | cons c r ih =>
    rw [cutFrom, keptFrom]
    split
    · simp
    · rw [ih]
      split
      · next h => rw [h, if_pos rfl]
      · next h => rw [if_neg (fun he => h (List.cons.inj he).2), List.cons_append]

theorem kept_isPrefix (s : List Char) (columns : Nat) : kept s columns <+: s :=
  keptFrom_isPrefix (columns - 1) 0 s

/-- What is left counts for fewer columns than there are, and is the longest beginning that does. -/
theorem kept_longest {columns : Nat} (h : 1 ≤ columns) (s : List Char) :
    countedWidth (kept s columns) < columns ∧
      ∀ q, q <+: s → countedWidth q < columns → q <+: kept s columns := by
  constructor
  · have := countedWidth_keptFrom (Nat.zero_le (columns - 1)) s
    rw [kept]
    omega
  · intro q hq hfits
    exact prefix_keptFrom hq (by omega)

/-- Nothing is cut off just if the whole text counts for fewer columns. -/
theorem kept_eq_iff {columns : Nat} (h : 1 ≤ columns) (s : List Char) :
    kept s columns = s ↔ countedWidth s < columns := by
  obtain ⟨hfits, hlongest⟩ := kept_longest h s
  constructor
  · intro he
    rwa [he] at hfits
  · intro hs
    exact (kept_isPrefix s columns).eq_of_length
      (Nat.le_antisymm (kept_isPrefix s columns).length_le
        (hlongest s (List.prefix_refl s) hs).length_le)

theorem truncate_of_wide {columns : Nat} (h : 1 ≤ columns) (hwide : columns < textWidth s) :
    truncate s columns =
      if countedWidth s < columns then s else kept s columns ++ [ellipsis] := by
  rw [truncate, if_neg (Nat.not_le.mpr hwide), cutFrom_eq]
  exact ite_congr (propext (kept_eq_iff h s)) (fun _ => rfl) fun _ => rfl

/-! ## The width of the result -/

/-- A text is cut to so many columns: it stays as it is if it fits, otherwise a beginning of it is
left with an ellipsis, and in both cases the columns are enough. -/
structure CutTo (s : List Char) (columns : Nat) (result : List Char) : Prop where
  fitting : textWidth s ≤ columns → result = s
  shortened : columns < textWidth s → ∃ p, p <+: s ∧ p ≠ s ∧ result = p ++ [ellipsis]
  within : textWidth result ≤ columns

theorem cutTo_of_fits {columns : Nat} (h : textWidth s ≤ columns) :
    CutTo s columns (truncate s columns) := by
  rw [truncate_of_fits h]
  exact ⟨fun _ => rfl, fun hwide => absurd h (Nat.not_le.mpr hwide), h⟩

/-- A text that does not fit is cut to the columns just if it counts for as many, and what is left
of it takes fewer. -/
theorem cutTo_iff_of_wide {columns : Nat} (h : 1 ≤ columns) (hwide : columns < textWidth s) :
    CutTo s columns (truncate s columns) ↔
      columns ≤ countedWidth s ∧ textWidth (kept s columns) < columns := by
  rw [truncate_of_wide h hwide]
  by_cases hcount : countedWidth s < columns
  · -- The cut never comes to the ellipsis.
    rw [if_pos hcount]
    constructor
    · intro hcut
      exact absurd hcut.within (Nat.not_le.mpr hwide)
    · intro ⟨hle, _⟩
      omega
  · rw [if_neg hcount, ← textWidth_append_ellipsis_le_iff h]
    constructor
    · intro hcut
      exact ⟨Nat.le_of_not_lt hcount, hcut.within⟩
    · intro ⟨_, hwithin⟩
      refine ⟨fun hfits => absurd hfits (Nat.not_le.mpr hwide), fun _ => ?_, hwithin⟩
      exact ⟨_, kept_isPrefix s columns, (kept_eq_iff h s).not.mpr hcount, rfl⟩

/-- A text that fits stays as it is. Any other is cut to the columns just if it counts for as many,
and the beginning that is left takes fewer. That beginning is the longest that counts for fewer; in
a text of independent characters it takes what it counts for and one more for each control character
in it, so that without control characters each such text is cut to the columns. -/
theorem truncate_bounded (s : List Char) {columns : Nat} (h : 1 ≤ columns) :
    (CutTo s columns (truncate s columns) ↔
      textWidth s ≤ columns ∨
        columns ≤ countedWidth s ∧ textWidth (kept s columns) < columns) ∧
    (columns < textWidth s → truncate s columns =
      if countedWidth s < columns then s else kept s columns ++ [ellipsis]) ∧
    (kept s columns <+: s ∧ countedWidth (kept s columns) < columns ∧
      ∀ q, q <+: s → countedWidth q < columns → q <+: kept s columns) ∧
    (Independent s →
      textWidth s = countedWidth s + s.countP isControl ∧
      textWidth (kept s columns) =
        countedWidth (kept s columns) + (kept s columns).countP isControl ∧
      ((∀ c ∈ s, isControl c = false) → CutTo s columns (truncate s columns))) := by
  have hiff : CutTo s columns (truncate s columns) ↔
      textWidth s ≤ columns ∨
        columns ≤ countedWidth s ∧ textWidth (kept s columns) < columns := by
    by_cases hfits : textWidth s ≤ columns
    · simp only [hfits, true_or, iff_true]
      exact cutTo_of_fits hfits
    · simp only [hfits, false_or]
      exact cutTo_iff_of_wide h (Nat.lt_of_not_le hfits)
  refine ⟨hiff, truncate_of_wide h, ⟨kept_isPrefix s columns, kept_longest h s⟩, fun hs => ?_⟩
  have hkept : Independent (kept s columns) := hs.of_prefix (kept_isPrefix s columns)
  refine ⟨textWidth_of_independent hs, textWidth_of_independent hkept, fun hplain => ?_⟩
  have hplain' : ∀ c ∈ kept s columns, isControl c = false := fun c hc =>
    hplain c ((kept_isPrefix s columns).subset hc)
  obtain ⟨hcount, -⟩ := kept_longest h s
  rw [hiff, textWidth_of_plain hs hplain, textWidth_of_plain hkept hplain']
  omega

/-- Characters of two columns, and one with an accent that takes none. -/
def accented : List Char := ['日', '本', 'e', Char.ofNat 0x301, '語', 'の', 'ロ', 'グ']

theorem truncate_bounded_accented :
    1 ≤ 7 ∧ 7 < textWidth accented ∧ Independent accented ∧
      (∀ c ∈ accented, isControl c = false) ∧ CutTo accented 7 (truncate accented 7) := by
  have hindependent : Independent accented := by decide +kernel
  have hall : accented.all (fun c => !isControl c) = true := by decide +kernel
  have hplain : ∀ c ∈ accented, isControl c = false := fun c hc => by
    simpa using List.all_eq_true.mp hall c hc
  obtain ⟨-, -, -, htext⟩ := truncate_bounded accented (show 1 ≤ 7 by decide)
  exact ⟨by decide, by decide +kernel, hindependent, hplain, (htext hindependent).2.2 hplain⟩

/-- Newlines count for nothing in the cut, and so it either comes to no end or ends too late. -/
theorem newlines_overrun :
    (Independent ['\n', '\n'] ∧ truncate ['\n', '\n'] 1 = ['\n', '\n'] ∧
      textWidth ['\n', '\n'] = 2 ∧ ¬ CutTo ['\n', '\n'] 1 (truncate ['\n', '\n'] 1)) ∧
    Independent ['\n', '\n', 'a', 'b'] ∧
      truncate ['\n', '\n', 'a', 'b'] 2 = ['\n', '\n', 'a', ellipsis] ∧
      textWidth ['\n', '\n', 'a', ellipsis] = 4 := by
  have huncut : ¬ CutTo ['\n', '\n'] 1 (truncate ['\n', '\n'] 1) := by
    intro h
    exact absurd h.within (by decide +kernel)
  exact ⟨⟨by decide +kernel, by decide +kernel, by decide +kernel, huncut⟩, by decide +kernel⟩

end Overseer.Display
