import Overseer.Proofs.Log.SlotMoves

/-! The shift of a rotation, seen on what the slots hold. `shift_raises` ties the shift of the
tree to `raise`; `raise_succ` says that it moves all slots up by one or none. -/

namespace Overseer.Log

namespace Shelf

/-- Moves what slot `n - 1` holds to `n`, then from `n - 2` to `n - 1`, down to slot 0. -/
def raise (fits : Nat → Prop) [DecidablePred fits] :
    Nat → (Nat → Option Node) → (Nat → Option Node) × Except FileError Unit
  | 0, σ => (σ, .ok ())
  | n + 1, σ =>
    match σ n with
    | none => raise fits n σ
    | some x =>
      if fits (n + 1) then
        match σ (n + 1) with
        | some (.dir _) => (σ, .error .isDirectory)
        | _ => raise fits n (set (set σ n none) (n + 1) (some x))
      else (σ, .error .nameTooLong)

/-- The slots up to `n` moved up by one; what the last one held is gone if anything takes its
place. -/
def lifted {α : Type} (σ : Nat → Option α) (n : Nat) : Nat → Option α
  | 0 => none
  | i + 1 => if i + 1 < n then σ i else if i + 1 = n then (σ i).or (σ n) else σ (i + 1)

section Raise

variable {fits : Nat → Prop} [DecidablePred fits] {σ : Nat → Option Node}

theorem lifted_zero (h : σ 0 = none) : lifted σ 0 = σ := by
  funext i
  cases i with
  | zero => exact h.symm
  | succ i => simp [lifted]

theorem lifted_of_free {n : Nat} (h : σ n = none) : lifted σ n = lifted σ (n + 1) := by
  funext i
  cases i with
  | zero => rfl
  | succ i =>
    simp only [lifted]
    by_cases h₁ : i + 1 < n
    · rw [if_pos h₁, if_pos (by omega)]
    · rw [if_neg h₁]
      by_cases h₂ : i + 1 = n
      · rw [if_pos h₂, if_pos (by omega), h, Option.or_none]
      · rw [if_neg h₂, if_neg (by omega)]
        by_cases h₃ : i + 1 = n + 1
        · obtain rfl : i = n := by omega
          rw [if_pos rfl, h, Option.none_or]
        · rw [if_neg h₃]

/-- Moving the last slot first, or all at once. -/
theorem lifted_set {n : Nat} {x : Node} (h : σ n = some x) :
    lifted (set (set σ n none) (n + 1) (some x)) n = lifted σ (n + 1) := by
  funext i
  cases i with
  | zero => rfl
  | succ i =>
    simp only [lifted]
    by_cases h₁ : i + 1 < n
    · rw [if_pos h₁, if_pos (by omega), set_ne _ _ _ (by omega), set_ne _ _ _ (by omega)]
    · rw [if_neg h₁]
      by_cases h₂ : i + 1 = n
      · rw [if_pos h₂, if_pos (by omega), set_ne _ _ _ (by omega), set_ne _ _ _ (by omega),
          set_ne _ _ _ (by omega), set_self, Option.or_none]
      · rw [if_neg h₂, if_neg (by omega)]
        by_cases h₃ : i + 1 = n + 1
        · obtain rfl : i = n := by omega
          rw [if_pos rfl, set_self, h, Option.some_or]
        · rw [if_neg h₃, set_ne _ _ _ (by omega), set_ne _ _ _ (by omega)]

/-- With the last slot free and all of them within reach, every slot moves. -/
theorem raise_free {n : Nat} (hfits : ∀ i ≤ n, fits i) (h : σ n = none) :
    raise fits n σ = (lifted σ n, .ok ()) := by
  induction n generalizing σ with
  | zero => rw [raise, lifted_zero h]
  | succ n ih =>
    have hn : ∀ i ≤ n, fits i := fun i hi => hfits i (by omega)
    rw [raise]
    cases hx : σ n with
    | none => simp only [ih hn hx, lifted_of_free hx]
    | some x =>
      simp only [if_pos (hfits (n + 1) (Nat.le_refl _)), h]
      rw [ih hn (by rw [set_ne _ _ _ (by omega), set_self]), lifted_set hx]

/-- With the last slot free, every slot moves, or the first move already fails. -/
theorem raise_of_free (hfits : ∀ i j, i ≤ j → fits j → fits i) {n : Nat} (h : σ n = none) :
    raise fits n σ = (lifted σ n, .ok ()) ∨ ¬ fits n ∧ ∃ e, raise fits n σ = (σ, .error e) := by
  induction n with
  | zero => exact Or.inl (by rw [raise, lifted_zero h])
  | succ n ih =>
    by_cases hfit : fits (n + 1)
    · exact Or.inl (raise_free (fun i hi => hfits i (n + 1) hi hfit) h)
    · rw [raise]
      cases hx : σ n with
      | none =>
        rw [← lifted_of_free hx]
        rcases ih hx with hmoved | ⟨-, hstuck⟩
        · exact Or.inl hmoved
        · exact Or.inr ⟨hfit, hstuck⟩
      | some x =>
        simp only [if_neg hfit]
        exact Or.inr ⟨hfit, _, rfl⟩

/-- Every slot moves; or none does, and the last one is out of reach or a directory. -/
theorem raise_succ (hfits : ∀ i j, i ≤ j → fits j → fits i) (n : Nat) :
    raise fits (n + 1) σ = (lifted σ (n + 1), .ok ()) ∨
      (fits (n + 1) → ∃ es, σ (n + 1) = some (.dir es)) ∧
        ∃ e, raise fits (n + 1) σ = (σ, .error e) := by
  rw [raise]
  cases hx : σ n with
  | none =>
    rw [← lifted_of_free hx]
    rcases raise_of_free hfits hx with hmoved | ⟨hfit, hstuck⟩
    · exact Or.inl hmoved
    · exact Or.inr ⟨fun hlast => absurd (hfits n (n + 1) (by omega) hlast) hfit, hstuck⟩
  | some x =>
    by_cases hfit : fits (n + 1)
    · have hn : ∀ i ≤ n, fits i := fun i hi => hfits i (n + 1) (by omega) hfit
      have hmoved : raise fits n (set (set σ n none) (n + 1) (some x)) = _ :=
        raise_free hn (by rw [set_ne _ _ _ (by omega), set_self])
      simp only [if_pos hfit]
      cases hlast : σ (n + 1) with
      | none => exact Or.inl (by rw [hmoved, lifted_set hx])
      | some y =>
        cases y with
        | dir es => exact Or.inr ⟨fun _ => ⟨es, rfl⟩, _, rfl⟩
        | file id => exact Or.inl (by rw [hmoved, lifted_set hx])
        | link target => exact Or.inl (by rw [hmoved, lifted_set hx])
    · simp only [if_neg hfit]
      exact Or.inr ⟨fun hlast => absurd hlast hfit, _, rfl⟩

theorem raise_of_some {n : Nat} {x : Node} (hx : σ n = some x) (hfit : fits (n + 1)) :
    raise fits (n + 1) σ =
      if (σ (n + 1)).map Node.isDir = some true then (σ, .error .isDirectory)
      else raise fits n (set (set σ n none) (n + 1) (some x)) := by
  rw [raise, hx]
  simp only [if_pos hfit]
  cases σ (n + 1) with
  | none => rfl
  | some y =>
    cases y with
    | file id => rfl
    | link target => rfl
    | dir es => rfl

/-- Whether the slots can be moved depends on which of them are taken, and by directories. -/
theorem raise_congr {τ : Nat → Option Node} {n : Nat}
    (h : ∀ i ≤ n, (τ i).map Node.isDir = (σ i).map Node.isDir) :
    (raise fits n τ).2 = (raise fits n σ).2 := by
  induction n generalizing σ τ with
  | zero => rfl
  | succ n ih =>
    have hbelow : ∀ i ≤ n, (τ i).map Node.isDir = (σ i).map Node.isDir := fun i hi =>
      h i (by omega)
    have hn := hbelow n (Nat.le_refl n)
    cases hx : σ n with
    | none =>
      have hy : τ n = none := by simpa [hx] using hn
      rw [raise, raise, hx, hy]
      exact ih hbelow
    | some x =>
      obtain ⟨y, hy⟩ : ∃ y, τ n = some y := by
        cases hy : τ n with
        | none => simp [hx, hy] at hn
        | some y => exact ⟨y, rfl⟩
      by_cases hfit : fits (n + 1)
      · rw [raise_of_some hx hfit, raise_of_some hy hfit, h (n + 1) (Nat.le_refl _)]
        split
        · rfl
        · apply ih
          intro i hi
          have hlast : i ≠ n + 1 := by omega
          rw [set_ne _ _ _ hlast, set_ne _ _ _ hlast]
          by_cases hin : i = n
          · rw [hin, set_self, set_self]
          · rw [set_ne _ _ _ hin, set_ne _ _ _ hin]
            exact hbelow i hi
      · rw [raise, raise, hx, hy]
        simp only [if_neg hfit]

/-- With all slots within reach, they cannot be moved just if something is to move into the last
one and a directory is in the way. -/
theorem raise_error_iff {n : Nat} (hfits : ∀ i ≤ n + 1, fits i) :
    (∃ e, (raise fits (n + 1) σ).2 = .error e) ↔
      (σ n).isSome ∧ ∃ es, σ (n + 1) = some (.dir es) := by
  have hn : ∀ i ≤ n, fits i := fun i hi => hfits i (by omega)
  rw [raise]
  cases hx : σ n with
  | none => simp [raise_free hn hx]
  | some x =>
    have hmoved : raise fits n (set (set σ n none) (n + 1) (some x)) = _ :=
      raise_free hn (by rw [set_ne _ _ _ (by omega), set_self])
    simp only [if_pos (hfits (n + 1) (Nat.le_refl _))]
    cases hlast : σ (n + 1) with
    | none => simp [hmoved]
    | some y => cases y <;> simp [hmoved]

end Raise

/-! ## The shift of the tree -/

variable {s : Shelf} {t : FileTree} {base : String} {n : Nat}

namespace Holds

/-- One slot moved into the next, which is cleared before. -/
theorem move_up (h : s.Holds t base n) {k : Nat} (hk : k + 1 ≤ n) {x : Node}
    (hx : s.held base t k = some x) (hfit : s.Fits base (k + 1))
    (hdir : ∀ es, s.held base t (k + 1) ≠ some (.dir es)) :
    ∃ t₁ t₂, RotatingLog.clearSlot t (slotPath base (k + 1)) = .ok t₁ ∧
      t₁.rename (slotPath base k) (slotPath base (k + 1)) = .ok t₂ ∧ s.Holds t₂ base n ∧
      s.held base t₂ = set (set (s.held base t) k none) (k + 1) (some x) ∧
      t₂.contents = t.contents ∧ s.Confined base n t t₂ := by
  -- What is left after the target is cleared: the target free, the source as it was.
  obtain ⟨t₁, hclear, hHolds, hheld, hcontents, hconfined⟩ :
      ∃ t₁, RotatingLog.clearSlot t (slotPath base (k + 1)) = .ok t₁ ∧ s.Holds t₁ base n ∧
        s.held base t₁ = set (s.held base t) (k + 1) none ∧ t₁.contents = t.contents ∧
        s.Confined base n t t₁ := by
    rw [h.clearSlot_slot hk, if_pos hfit]
    cases hy : s.held base t (k + 1) with
    | none => exact ⟨t, rfl, h, (set_of_eq hy).symm, rfl, .refl⟩
    | some y =>
      have hput := h.held_put hfit none
      have hconfined := h.confined_put hk hfit none
      cases y with
      | dir es => exact absurd hy (hdir es)
      | file id => exact ⟨_, rfl, h.remove hk hfit, hput, rfl, hconfined⟩
      | link target => exact ⟨_, rfl, h.remove hk hfit, hput, rfl, hconfined⟩
  have hx₁ : s.held base t₁ k = some x := by rw [hheld, set_ne _ _ _ (by omega), hx]
  have hfree : s.held base t₁ (k + 1) = none := by rw [hheld, set_self]
  have hfitk := fits_of_held hx
  have hremoved : s.Holds (t₁.put (s.slot k) none) base n := hHolds.remove (by omega) hfitk
  have hmoved := (hHolds.confined_put (show k ≤ n by omega) hfitk none).trans
    (hremoved.confined_put hk hfit (some x))
  refine ⟨t₁, _, hclear, hHolds.rename_slot (by omega) hk (by omega) hx₁ hfit hfree,
    hHolds.move (by omega) hk hx₁ hfit, ?_, hcontents, hconfined.trans hmoved⟩
  rw [hremoved.held_put hfit, hHolds.held_put hfitk, hheld]
  funext i
  simp only [set]
  split
  · rfl
  · rfl

theorem raise_cases (h : s.Holds t base n) (hne : n ≠ 0) :
    raise (s.Fits base) n (s.held base t) = (lifted (s.held base t) n, .ok ()) ∨
      (s.Fits base n → ∃ es, s.held base t n = some (.dir es)) ∧
        ∃ e, raise (s.Fits base) n (s.held base t) = (s.held base t, .error e) := by
  obtain ⟨m, rfl⟩ := Nat.exists_eq_succ_of_ne_zero hne
  exact raise_succ (fun i j hij hj => h.reached.fits_of_le hij hj) m

/-- A shift that fails has changed nothing. -/
theorem shift_raises (h : s.Holds t base n) {k : Nat} (hk : k ≤ n) :
    ∃ t', RotatingLog.shift t base k = (t', (raise (s.Fits base) k (s.held base t)).2) ∧
      s.Holds t' base n ∧ s.held base t' = (raise (s.Fits base) k (s.held base t)).1 ∧
      t'.contents = t.contents ∧ s.Confined base n t t' ∧
      ∀ e, (raise (s.Fits base) k (s.held base t)).2 = .error e → t' = t := by
  induction k generalizing t with
  | zero => exact ⟨t, rfl, h, rfl, rfl, .refl, fun _ _ => rfl⟩
  | succ k ih =>
    have hkn : k ≤ n := by omega
    rw [RotatingLog.shift, h.pathExists_slot hkn, raise]
    cases hx : s.held base t k with
    | none => simpa using ih h hkn
    | some x =>
      simp only [Option.isSome_some, ↓reduceIte]
      by_cases hfit : s.Fits base (k + 1)
      · rw [if_pos hfit]
        by_cases hdir : ∃ es, s.held base t (k + 1) = some (.dir es)
        · obtain ⟨es, hes⟩ := hdir
          rw [h.clearSlot_slot hk, if_pos hfit, hes]
          exact ⟨t, rfl, h, rfl, rfl, .refl, fun _ _ => rfl⟩
        · obtain ⟨t₁, t₂, hclear, hrename, hHolds, hheld, hcontents, hconfined⟩ :=
            h.move_up hk hx hfit fun es hes => hdir ⟨es, hes⟩
          -- The source is free now, so the rest of the shift goes through.
          have hmoved := raise_free (n := k) (σ := s.held base t₂)
            (fun i hi => h.reached.fits_of_le (show i ≤ k + 1 by omega) hfit)
            (by rw [hheld, set_ne _ _ _ (by omega), set_self])
          obtain ⟨t', hshift, hHolds', hheld', hcontents', hconfined', -⟩ := ih hHolds hkn
          rw [hheld] at hshift hheld' hmoved
          have hraise : (match s.held base t (k + 1) with
              | some (.dir _) => (s.held base t, .error .isDirectory)
              | _ => raise (s.Fits base) k (set (set (s.held base t) k none) (k + 1) (some x))) =
              raise (s.Fits base) k (set (set (s.held base t) k none) (k + 1) (some x)) := by
            split
            · next hes => exact absurd ⟨_, hes⟩ hdir
            · rfl
          rw [hraise]
          refine ⟨t', ?_, hHolds', hheld', hcontents'.trans hcontents,
            hconfined.trans hconfined', fun e he => ?_⟩
          · simp only [hclear, hrename, hshift]
          · rw [hmoved] at he
            cases he
      · rw [if_neg hfit, h.clearSlot_slot hk, if_neg hfit]
        exact ⟨t, rfl, h, rfl, rfl, .refl, fun _ _ => rfl⟩

end Holds

end Shelf

end Overseer.Log
