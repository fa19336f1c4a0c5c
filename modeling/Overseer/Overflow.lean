/-! Sums and products of 64-bit counters, refused where they leave 64 bits. -/

namespace Overseer

inductive Overflow where
  | addition
  | multiplication
  deriving DecidableEq, Repr

def Overflow.message : Overflow → String
  | addition => "attempt to add with overflow"
  | multiplication => "attempt to multiply with overflow"

def addChecked (a b : UInt64) : Except Overflow UInt64 :=
  if a.toNat + b.toNat < UInt64.size then .ok (a + b) else .error .addition

def mulChecked (a b : UInt64) : Except Overflow UInt64 :=
  if a.toNat * b.toNat < UInt64.size then .ok (a * b) else .error .multiplication

/-- The product, or the largest value where it is beyond that. -/
def mulSaturating (a b : UInt64) : UInt64 :=
  UInt64.ofNat (min (a.toNat * b.toNat) (UInt64.size - 1))

theorem addChecked_of_lt {a b : UInt64} (h : a.toNat + b.toNat < UInt64.size) :
    addChecked a b = .ok (a + b) := if_pos h

theorem addChecked_eq_error_iff (a b : UInt64) (e : Overflow) :
    addChecked a b = .error e ↔ UInt64.size ≤ a.toNat + b.toNat ∧ e = .addition := by
  unfold addChecked
  split
  · simp; omega
  · simp only [Except.error.injEq]; constructor
    · rintro rfl; exact ⟨by omega, rfl⟩
    · rintro ⟨_, rfl⟩; rfl

theorem toNat_of_addChecked {a b c : UInt64} (h : addChecked a b = .ok c) :
    c.toNat = a.toNat + b.toNat := by
  unfold addChecked at h
  split at h
  · injection h with h
    subst h
    rw [UInt64.toNat_add]
    exact Nat.mod_eq_of_lt (by assumption)
  · cases h

/-- A sum leaves 64 bits, or it is exact. -/
theorem addChecked_cases (a b : UInt64) :
    (UInt64.size ≤ a.toNat + b.toNat ∧ ∃ e, addChecked a b = .error e) ∨
      ∃ c, addChecked a b = .ok c ∧ c.toNat = a.toNat + b.toNat := by
  cases h : addChecked a b with
  | error e => exact .inl ⟨((addChecked_eq_error_iff a b e).mp h).1, e, rfl⟩
  | ok c => exact .inr ⟨c, rfl, toNat_of_addChecked h⟩

theorem mulChecked_eq_error_iff (a b : UInt64) (e : Overflow) :
    mulChecked a b = .error e ↔ UInt64.size ≤ a.toNat * b.toNat ∧ e = .multiplication := by
  unfold mulChecked
  split
  · next h =>
    constructor
    · intro h'
      cases h'
    · rintro ⟨h', _⟩
      exact absurd h (Nat.not_lt.mpr h')
  · next h =>
    simp only [Except.error.injEq]
    constructor
    · rintro rfl
      exact ⟨Nat.not_lt.mp h, rfl⟩
    · rintro ⟨_, rfl⟩
      rfl

theorem toNat_of_mulChecked {a b c : UInt64} (h : mulChecked a b = .ok c) :
    c.toNat = a.toNat * b.toNat := by
  unfold mulChecked at h
  split at h
  · injection h with h
    subst h
    rw [UInt64.toNat_mul]
    exact Nat.mod_eq_of_lt (by assumption)
  · cases h

/-- A product leaves 64 bits, or it is exact. -/
theorem mulChecked_cases (a b : UInt64) :
    (UInt64.size ≤ a.toNat * b.toNat ∧ ∃ e, mulChecked a b = .error e) ∨
      ∃ c, mulChecked a b = .ok c ∧ c.toNat = a.toNat * b.toNat := by
  cases h : mulChecked a b with
  | error e => exact .inl ⟨((mulChecked_eq_error_iff a b e).mp h).1, e, rfl⟩
  | ok c => exact .inr ⟨c, rfl, toNat_of_mulChecked h⟩

theorem toNat_mulSaturating (a b : UInt64) :
    (mulSaturating a b).toNat = min (a.toNat * b.toNat) (UInt64.size - 1) := by
  rw [mulSaturating, UInt64.toNat_ofNat']
  exact Nat.mod_eq_of_lt (Nat.lt_of_le_of_lt (Nat.min_le_right _ _) (by decide))

end Overseer
