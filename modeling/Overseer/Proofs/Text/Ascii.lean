/-! ASCII text in bytes: one byte for each character. -/

namespace Overseer.Text

def IsAscii (l : List Char) : Prop := ∀ c ∈ l, c.val ≤ 127

instance (l : List Char) : Decidable (IsAscii l) :=
  decidable_of_iff (l.all (·.val ≤ 127) = true)
    ⟨fun h c hc => of_decide_eq_true (List.all_eq_true.mp h c hc),
      fun h => List.all_eq_true.mpr fun c hc => decide_eq_true (h c hc)⟩

theorem IsAscii.append {x y : List Char} (hx : IsAscii x) (hy : IsAscii y) : IsAscii (x ++ y) := by
  intro c hc
  rcases List.mem_append.mp hc with hc | hc
  · exact hx c hc
  · exact hy c hc

theorem isAscii_of_isDigit {l : List Char} (h : ∀ c ∈ l, c.isDigit = true) : IsAscii l := by
  intro c hc
  have := h c hc
  simp only [Char.isDigit, Bool.and_eq_true, decide_eq_true_eq] at this
  exact UInt32.le_trans this.2 (by decide)

theorem flatMap_encode_ascii {l : List Char} (h : IsAscii l) :
    l.flatMap String.utf8EncodeChar = l.map fun c => c.val.toUInt8 := by
  induction l with
  | nil => rfl
  | cons c l ih =>
    have hc : c.utf8Size = 1 := Char.utf8Size_eq_one_iff.mpr (h c (by simp))
    rw [List.flatMap_cons, String.utf8EncodeChar_eq_singleton hc,
      ih fun d hd => h d (List.mem_cons_of_mem _ hd)]
    rfl

theorem bytes_of_ascii {s : String} (h : IsAscii s.toList) :
    s.toUTF8.data.toList = s.toList.map fun c => c.val.toUInt8 := by
  rw [String.toUTF8_eq_toByteArray, ← String.utf8Encode_toList, List.utf8Encode,
    List.toList_data_toByteArray, flatMap_encode_ascii h]

theorem utf8ByteSize_of_ascii {s : String} (h : IsAscii s.toList) :
    s.utf8ByteSize = s.toList.length := by
  have := congrArg List.length (bytes_of_ascii h)
  rw [List.length_map] at this
  exact this

/-! ## Fields of a record -/

theorem toList_pushn (c : Char) (k : Nat) : ("".pushn c k).toList = List.replicate k c := by
  induction k with
  | zero => rfl
  | succ k ih =>
    rw [List.replicate_succ', ← ih]
    exact String.toList_push c

/-- Text of so many ASCII characters, none a newline. -/
structure IsField (width : Nat) (s : String) : Prop where
  length : s.toList.length = width
  ascii : IsAscii s.toList
  newline : '\n' ∉ s.toList

instance (width : Nat) (s : String) : Decidable (IsField width s) :=
  decidable_of_iff (s.toList.length = width ∧ IsAscii s.toList ∧ '\n' ∉ s.toList)
    ⟨fun h => ⟨h.1, h.2.1, h.2.2⟩, fun h => ⟨h.length, h.ascii, h.newline⟩⟩

namespace IsField

variable {j k : Nat} {s u : String}

theorem append (hs : IsField j s) (hu : IsField k u) : IsField (j + k) (s ++ u) where
  length := by rw [String.toList_append, List.length_append, hs.length, hu.length]
  ascii := by
    rw [String.toList_append]
    exact hs.ascii.append hu.ascii
  newline := by
    rw [String.toList_append, List.mem_append, not_or]
    exact ⟨hs.newline, hu.newline⟩

theorem length_bytes (h : IsField k s) : s.toUTF8.data.toList.length = k := by
  rw [bytes_of_ascii h.ascii, List.length_map, h.length]

theorem newline_not_mem_bytes (h : IsField k s) : (10 : UInt8) ∉ s.toUTF8.data.toList := by
  rw [bytes_of_ascii h.ascii]
  intro hm
  obtain ⟨c, hc, hbyte⟩ := List.mem_map.mp hm
  have hval : c.val.toNat ≤ 127 := UInt32.le_iff_toNat_le.mp (h.ascii c hc)
  have hten : c.val.toNat = 10 := by
    have hnat := congrArg UInt8.toNat hbyte
    rw [UInt32.toNat_toUInt8, Nat.mod_eq_of_lt (by omega)] at hnat
    exact hnat
  have hc' : c = '\n' := Char.ext (UInt32.toNat_inj.mp hten)
  exact h.newline (hc' ▸ hc)

end IsField

end Overseer.Text
