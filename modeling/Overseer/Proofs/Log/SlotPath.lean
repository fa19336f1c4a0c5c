import Overseer.Log.RotatingLog
import Overseer.Proofs.FileTree.Walk
import Overseer.Proofs.Path.Pieces
import Overseer.Proofs.Text.Ascii

/-! The paths of a log's slots. They differ in their last piece only, `slotName`, which no two
slots share (`slotName_injective`). -/

namespace Overseer.Log

open FileTree (Plain)

/-- The name of an archive of a file. -/
def archiveName (a : List Char) (index : Nat) : List Char :=
  match Path.splitExtension a with
  | (stem, some e) => stem ++ '.' :: Nat.toDigits 10 index ++ '.' :: e
  | (stem, none) => stem ++ '.' :: Nat.toDigits 10 index

def slotName (a : List Char) : Nat → List Char
  | 0 => a
  | i + 1 => archiveName a (i + 1)

theorem toDigits_injective {m n : Nat} (h : Nat.toDigits 10 m = Nat.toDigits 10 n) : m = n := by
  calc
    m = Nat.ofDigitChars 10 (Nat.toDigits 10 m) 0 := Nat.ofDigitChars_ten_toDigits.symm
    _ = Nat.ofDigitChars 10 (Nat.toDigits 10 n) 0 := by rw [h]
    _ = n := Nat.ofDigitChars_ten_toDigits

/-- A number has at least as many digits as a smaller one. -/
theorem length_toDigits_mono {m n : Nat} (h : m ≤ n) :
    (Nat.toDigits 10 m).length ≤ (Nat.toDigits 10 n).length := by
  have hpos : 0 < (Nat.toDigits 10 n).length := Nat.length_toDigits_pos
  rw [Nat.length_toDigits_le_iff (by decide) hpos]
  have := (Nat.length_toDigits_le_iff (n := n) (b := 10) (by decide) hpos).mp (Nat.le_refl _)
  omega

/-- An extension is what follows the last dot. -/
theorem splitExtension_cases (a : List Char) :
    Path.splitExtension a = (a, none) ∨
      ∃ stem e, Path.splitExtension a = (stem, some e) ∧ a = stem ++ '.' :: e := by
  have hsplit := List.takeWhile_append_dropWhile (p := (· ≠ '.')) (l := a.reverse)
  unfold Path.splitExtension
  cases hd : a.reverse.dropWhile (· ≠ '.') with
  | nil => exact Or.inl (by simp only)
  | cons c r =>
    cases r with
    | nil => exact Or.inl (by simp only)
    | cons d r =>
      have hc : c = '.' := by
        have hne : a.reverse.dropWhile (· ≠ '.') ≠ [] := by
          rw [hd]
          exact List.cons_ne_nil _ _
        have hhead := List.head_dropWhile_not (· ≠ '.') hne
        simp only [hd, List.head_cons] at hhead
        simpa using hhead
      subst hc
      refine Or.inr ⟨(d :: r).reverse, (a.reverse.takeWhile (· ≠ '.')).reverse, rfl, ?_⟩
      rw [hd] at hsplit
      have := congrArg List.reverse hsplit
      simpa using this.symm

variable {a : List Char}

theorem mem_archiveName {c : Char} {i : Nat} (h : c ∈ archiveName a i) :
    c ∈ a ∨ c = '.' ∨ c.isDigit = true := by
  have hdigits : c ∈ Nat.toDigits 10 i → c.isDigit = true :=
    Nat.isDigit_of_mem_toDigits (by decide) (by decide)
  rcases splitExtension_cases a with he | ⟨stem, e, he, ha⟩
  · simp only [archiveName, he, List.mem_append, List.mem_cons] at h
    rcases h with h | h | h
    · exact Or.inl h
    · exact Or.inr (Or.inl h)
    · exact Or.inr (Or.inr (hdigits h))
  · simp only [archiveName, he, List.mem_append, List.mem_cons] at h
    rcases h with (h | h | h) | h | h
    · exact Or.inl (by simp [ha, h])
    · exact Or.inr (Or.inl h)
    · exact Or.inr (Or.inr (hdigits h))
    · exact Or.inr (Or.inl h)
    · exact Or.inl (by simp [ha, h])

theorem archiveName_injective {i j : Nat} (h : archiveName a i = archiveName a j) : i = j := by
  rcases splitExtension_cases a with he | ⟨stem, e, he, -⟩
  · simp only [archiveName, he] at h
    exact toDigits_injective (List.cons.inj (List.append_cancel_left h)).2
  · simp only [archiveName, he] at h
    exact toDigits_injective
      (List.cons.inj (List.append_cancel_left (List.append_cancel_right h))).2

theorem length_lt_archiveName (a : List Char) (i : Nat) :
    a.length < (archiveName a i).length := by
  have hpos : 0 < (Nat.toDigits 10 i).length := Nat.length_toDigits_pos
  rcases splitExtension_cases a with he | ⟨stem, e, he, ha⟩
  · simp only [archiveName, he, List.length_append, List.length_cons]
    omega
  · have := congrArg List.length ha
    simp only [archiveName, he, List.length_append, List.length_cons] at this ⊢
    omega

theorem archiveName_plain (a : List Char) (i : Nat) : Plain (archiveName a i) := by
  -- A digit is in it, and in none of the pieces that name no entry.
  have hdigit : ∃ c ∈ archiveName a i, c.isDigit = true := by
    obtain ⟨c, hc⟩ := List.exists_mem_of_ne_nil _ (Nat.toDigits_ne_nil (n := i) (b := 10))
    refine ⟨c, ?_, Nat.isDigit_of_mem_toDigits (by decide) (by decide) hc⟩
    rcases splitExtension_cases a with he | ⟨stem, e, he, -⟩ <;> simp [archiveName, he, hc]
  obtain ⟨c, hc, hd⟩ := hdigit
  refine ⟨fun h => ?_, fun h => ?_, fun h => ?_⟩
  · simp [h] at hc
  · rw [h, List.mem_singleton] at hc
    simp [hc] at hd
  · rw [h] at hc
    have : c = '.' := by simpa using hc
    simp [this] at hd

theorem slotName_plain (ha : Plain a) (i : Nat) : Plain (slotName a i) := by
  cases i with
  | zero => exact ha
  | succ i => exact archiveName_plain a (i + 1)

theorem slotName_injective {i j : Nat} (h : slotName a i = slotName a j) : i = j := by
  cases i with
  | zero =>
    cases j with
    | zero => rfl
    | succ j =>
      have := congrArg List.length h
      have := length_lt_archiveName a (j + 1)
      simp only [slotName] at *
      omega
  | succ i =>
    cases j with
    | zero =>
      have := congrArg List.length h
      have := length_lt_archiveName a (i + 1)
      simp only [slotName] at *
      omega
    | succ j => exact archiveName_injective h

theorem slotName_ne {i j : Nat} (h : i ≠ j) :
    String.ofList (slotName a i) ≠ String.ofList (slotName a j) := by
  intro he
  have := congrArg String.toList he
  rw [String.toList_ofList, String.toList_ofList] at this
  exact h (slotName_injective this)

/-! ## Paths -/

variable {base : String} {ps : List (List Char)}

theorem archivePath_eq (h : Path.pieces base.toList = ps ++ [a]) (ha : Plain a) (i : Nat) :
    archivePath base i = String.ofList (Path.withFileName base.toList (archiveName a i)) := by
  have hname := Path.fileName?_of_pieces h ha.1 ha.2.1 ha.2.2
  rcases splitExtension_cases a with he | ⟨stem, e, he, -⟩ <;>
    simp [archivePath, archiveName, Path.fileStem?, Path.extension?, hname, he]

theorem slash_not_mem_archiveName (h : Path.pieces base.toList = ps ++ [a]) (i : Nat) :
    '/' ∉ archiveName a i := by
  intro hm
  rcases mem_archiveName hm with hm | hm | hm
  · exact Path.slash_free_of_mem_pieces (s := base.toList) (by simp [h]) hm
  · simp at hm
  · simp at hm

theorem pieces_archivePath (h : Path.pieces base.toList = ps ++ [a]) (ha : Plain a) (i : Nat) :
    Path.pieces (archivePath base i).toList = Path.trimmed ps ++ [archiveName a i] := by
  rw [archivePath_eq h ha, String.toList_ofList]
  exact Path.pieces_withFileName h ha.1 ha.2.1 ha.2.2 (slash_not_mem_archiveName h i)

/-- An archive's path starts at the root if the log's path does. -/
theorem isAbsolute_archivePath (h : Path.pieces base.toList = ps ++ [a]) (ha : Plain a) (i : Nat) :
    Path.isAbsolute (archivePath base i).toList = Path.isAbsolute base.toList := by
  rw [Bool.eq_iff_iff, Path.isAbsolute_iff, Path.isAbsolute_iff, pieces_archivePath h ha, h]
  have hhead := Path.head?_trimmed ps
  cases ps with
  | nil => simp [Path.trimmed, Path.trimLast, ha.1, (archiveName_plain a i).1]
  | cons p ps =>
    cases ht : Path.trimmed (p :: ps) with
    | nil => exact absurd ht (Path.trimmed_ne_nil (by simp))
    | cons q qs =>
      have hq : q = p := by simpa [ht] using hhead
      subst hq
      constructor
      · rintro ⟨x, r, hx⟩
        obtain ⟨y, r', hy⟩ := List.exists_cons_of_ne_nil (l := ps ++ [a]) (by simp)
        exact ⟨y, r', by rw [List.cons_append, hy, (List.cons.inj hx).1]⟩
      · rintro ⟨x, r, hx⟩
        obtain ⟨y, r', hy⟩ := List.exists_cons_of_ne_nil (l := qs ++ [archiveName a i]) (by simp)
        exact ⟨y, r', by rw [List.cons_append, hy, (List.cons.inj hx).1]⟩

theorem mem_archivePath (h : Path.pieces base.toList = ps ++ [a]) (ha : Plain a) {i : Nat}
    {c : Char} (hc : c ∈ (archivePath base i).toList) :
    c ∈ base.toList ∨ c = '/' ∨ c = '.' ∨ c.isDigit = true := by
  rw [← Path.glue_pieces (archivePath base i).toList, pieces_archivePath h ha] at hc
  rcases Path.mem_glue hc with hc | ⟨q, hq, hc⟩
  · exact Or.inr (Or.inl hc)
  · rcases List.mem_append.mp hq with hq | hq
    · refine Or.inl (Path.mem_of_mem_pieces (p := q) ?_ hc)
      rw [h]
      exact List.mem_append_left _ (Path.mem_trimmed hq)
    · rw [List.mem_singleton.mp hq] at hc
      rcases mem_archiveName hc with hc | hc
      · exact Or.inl (Path.mem_of_mem_pieces (p := a) (by simp [h]) hc)
      · exact Or.inr (Or.inr hc)

/-! ## Lengths -/

theorem utf8ByteSize_ofList_append (x y : List Char) :
    (String.ofList (x ++ y)).utf8ByteSize =
      (String.ofList x).utf8ByteSize + (String.ofList y).utf8ByteSize := by
  rw [String.ofList_append, String.utf8ByteSize_append]

theorem utf8ByteSize_toDigits (i : Nat) :
    (String.ofList (Nat.toDigits 10 i)).utf8ByteSize = (Nat.toDigits 10 i).length := by
  rw [Text.utf8ByteSize_of_ascii, String.toList_ofList]
  rw [String.toList_ofList]
  exact Text.isAscii_of_isDigit fun c hc =>
    Nat.isDigit_of_mem_toDigits (by decide) (by decide) hc

/-- An archive of a higher index has no shorter name. -/
theorem archiveName_size_mono (a : List Char) {i j : Nat} (h : i ≤ j) :
    (String.ofList (archiveName a i)).utf8ByteSize ≤
      (String.ofList (archiveName a j)).utf8ByteSize := by
  have hd := length_toDigits_mono h
  rw [← utf8ByteSize_toDigits, ← utf8ByteSize_toDigits] at hd
  have hsplit : ∀ x : List Char, ∀ k, x ++ '.' :: Nat.toDigits 10 k =
      x ++ (['.'] ++ Nat.toDigits 10 k) := fun _ _ => rfl
  rcases splitExtension_cases a with he | ⟨stem, e, he, -⟩
  · simp only [archiveName, he, hsplit, utf8ByteSize_ofList_append]
    omega
  · simp only [archiveName, he, hsplit, utf8ByteSize_ofList_append]
    omega

theorem archivePath_size_mono (h : Path.pieces base.toList = ps ++ [a]) (ha : Plain a) {i j : Nat}
    (hij : i ≤ j) :
    (archivePath base i).utf8ByteSize ≤ (archivePath base j).utf8ByteSize := by
  have hpath : ∀ k, archivePath base k =
      String.ofList (Path.glue (Path.trimmed ps ++ [archiveName a k])) := by
    intro k
    rw [← pieces_archivePath h ha, Path.glue_pieces, String.ofList_toList]
  have hname := archiveName_size_mono a hij
  rw [hpath i, hpath j]
  by_cases ht : Path.trimmed ps = []
  · simpa [ht, Path.glue] using hname
  · rw [Path.glue_append ht, Path.glue_append ht]
    have hsplit : ∀ k, Path.glue (Path.trimmed ps) ++ '/' :: archiveName a k =
        Path.glue (Path.trimmed ps) ++ (['/'] ++ archiveName a k) := fun _ => rfl
    simp only [hsplit, utf8ByteSize_ofList_append]
    omega

end Overseer.Log
