import Mathlib.Data.Fintype.Card
import Mathlib.Data.Fintype.EquivFin
import Overseer.Process.Summary

/-! When the totals over processes exist, and what they are. A list has totals exactly when its
sums fit into 64 bits, whatever the order (`exists_total_iff`), and the threads of distinct
processes always fit. -/

namespace Overseer

def residentSum : List Snapshot → Nat
  | [] => 0
  | s :: infos => s.residentBytes.toNat + residentSum infos

def threadSum : List Snapshot → Nat
  | [] => 0
  | s :: infos => s.threads.toNat + threadSum infos

@[simp] theorem residentSum_nil : residentSum [] = 0 := rfl

@[simp] theorem threadSum_nil : threadSum [] = 0 := rfl

@[simp] theorem residentSum_cons (s : Snapshot) (infos : List Snapshot) :
    residentSum (s :: infos) = s.residentBytes.toNat + residentSum infos := rfl

@[simp] theorem threadSum_cons (s : Snapshot) (infos : List Snapshot) :
    threadSum (s :: infos) = s.threads.toNat + threadSum infos := rfl

theorem residentSum_filter_le (infos : List Snapshot) (p : Snapshot → Bool) :
    residentSum (infos.filter p) ≤ residentSum infos := by
  induction infos with
  | nil => exact Nat.le_refl _
  | cons s infos ih =>
    rw [List.filter_cons, residentSum_cons]
    split
    · rw [residentSum_cons]
      omega
    · omega

namespace Summary

/-- A tree has the totals of its processes, parents first. -/
theorem ofTree_eq_ofList (t : ProcessTree) : ofTree t = ofList t.infos := by
  rw [ofTree, ofList, ProcessTree.infos, List.foldlM_map]

/-! ## Counting on -/

/-- The totals after some more processes have been counted. -/
structure Counted (t : Summary) (infos : List Snapshot) (total : Summary) : Prop where
  processes : total.processes = t.processes + infos.length
  resident : total.residentBytes.toNat = t.residentBytes.toNat + residentSum infos
  threads : total.threads.toNat = t.threads.toNat + threadSum infos

theorem Counted.nil (t : Summary) : Counted t [] t :=
  ⟨rfl, rfl, rfl⟩

theorem add_eq (t : Summary) (s : Snapshot) :
    t.add s = (addChecked t.residentBytes s.residentBytes).bind fun residentBytes =>
      (addChecked t.threads s.threads.toUInt64).bind fun threads =>
        .ok ⟨t.processes + 1, t.cpuPercent + s.cpuPercent, residentBytes, threads⟩ := rfl

theorem Counted.cons {t u total : Summary} {s : Snapshot} {infos : List Snapshot}
    (h : t.add s = .ok u) (hrest : Counted u infos total) : Counted t (s :: infos) total := by
  rw [add_eq] at h
  cases hresident : addChecked t.residentBytes s.residentBytes with
  | error e => rw [hresident] at h; cases h
  | ok residentBytes =>
    cases hthreads : addChecked t.threads s.threads.toUInt64 with
    | error e => rw [hresident, hthreads] at h; cases h
    | ok threads =>
      rw [hresident, hthreads] at h
      cases h
      have hresident' := toNat_of_addChecked hresident
      have hthreads' := toNat_of_addChecked hthreads
      rw [UInt32.toNat_toUInt64] at hthreads'
      refine ⟨?_, ?_, ?_⟩
      · rw [hrest.processes, List.length_cons, Nat.add_right_comm]
        rfl
      · rw [hrest.resident, hresident', residentSum_cons, Nat.add_assoc]
      · rw [hrest.threads, hthreads', threadSum_cons, Nat.add_assoc]

theorem foldlM_counted {t total : Summary} {infos : List Snapshot}
    (h : infos.foldlM add t = .ok total) : Counted t infos total := by
  induction infos generalizing t with
  | nil =>
    obtain rfl : t = total := Except.ok.inj h
    exact .nil t
  | cons s infos ih =>
    rw [List.foldlM_cons] at h
    cases hadd : t.add s with
    | error e => rw [hadd] at h; cases h
    | ok u =>
      rw [hadd] at h
      exact .cons hadd (ih h)

/-- Both sums stay within 64 bits when some more processes are counted. -/
def Fits (t : Summary) (infos : List Snapshot) : Prop :=
  t.residentBytes.toNat + residentSum infos < UInt64.size ∧
    t.threads.toNat + threadSum infos < UInt64.size

theorem Counted.fits {t total : Summary} {infos : List Snapshot} (h : Counted t infos total) :
    t.Fits infos :=
  ⟨h.resident ▸ total.residentBytes.toNat_lt_size, h.threads ▸ total.threads.toNat_lt_size⟩

theorem exists_add {t : Summary} {s : Snapshot} {infos : List Snapshot} (h : t.Fits (s :: infos)) :
    ∃ u, t.add s = .ok u := by
  simp only [Fits, residentSum_cons, threadSum_cons] at h
  rw [add_eq, addChecked_of_lt (by omega), addChecked_of_lt (by rw [UInt32.toNat_toUInt64]; omega)]
  exact ⟨_, rfl⟩

theorem exists_foldlM {t : Summary} {infos : List Snapshot} (h : t.Fits infos) :
    ∃ total, infos.foldlM add t = .ok total := by
  induction infos generalizing t with
  | nil => exact ⟨t, rfl⟩
  | cons s infos ih =>
    obtain ⟨u, hadd⟩ := exists_add h
    have hrest : u.Fits infos := by
      obtain ⟨-, hresident, hthreads⟩ := Counted.cons hadd (.nil u)
      simp only [Fits, residentSum_cons, threadSum_cons, residentSum_nil, threadSum_nil]
        at h hresident hthreads ⊢
      omega
    obtain ⟨total, htotal⟩ := ih hrest
    refine ⟨total, ?_⟩
    rw [List.foldlM_cons, hadd]
    exact htotal

/-! ## Lists -/

theorem ofList_counted {infos : List Snapshot} {total : Summary} (h : ofList infos = .ok total) :
    total.processes = infos.length ∧ total.residentBytes.toNat = residentSum infos ∧
      total.threads.toNat = threadSum infos := by
  obtain ⟨hprocesses, hresident, hthreads⟩ := foldlM_counted h
  exact ⟨by simpa using hprocesses, by simpa using hresident, by simpa using hthreads⟩

theorem exists_total_iff (infos : List Snapshot) :
    (∃ total, ofList infos = .ok total) ↔
      residentSum infos < UInt64.size ∧ threadSum infos < UInt64.size := by
  have hfits : Fits {} infos ↔ residentSum infos < UInt64.size ∧ threadSum infos < UInt64.size := by
    simp [Fits]
  rw [← hfits]
  constructor
  · rintro ⟨total, h⟩
    exact (foldlM_counted h).fits
  · exact exists_foldlM

end Summary

/-! ## Distinct processes -/

theorem length_le_of_nodup_pids {infos : List Snapshot} (h : (infos.map (·.pid)).Nodup) :
    infos.length ≤ UInt32.size := by
  have hfin : (infos.map fun s => s.pid.toFin).Nodup := by
    rw [← Function.comp_def UInt32.toFin, ← List.map_map]
    exact h.map fun _ _ => UInt32.toFin_inj.mp
  simpa using hfin.length_le_card

theorem threadSum_le (infos : List Snapshot) :
    threadSum infos ≤ infos.length * (UInt32.size - 1) := by
  induction infos with
  | nil => exact Nat.le_refl _
  | cons s infos ih =>
    have := s.threads.toNat_lt_size
    rw [threadSum_cons, List.length_cons, Nat.add_mul]
    omega

theorem threadSum_lt {infos : List Snapshot} (h : infos.length ≤ UInt32.size) :
    threadSum infos < UInt64.size := by
  have hmul := Nat.mul_le_mul_right (UInt32.size - 1) h
  have hsize : UInt32.size * (UInt32.size - 1) < UInt64.size := by decide
  have := threadSum_le infos
  omega

end Overseer
