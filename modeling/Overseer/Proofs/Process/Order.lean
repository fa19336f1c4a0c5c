import Mathlib.Algebra.GroupWithZero.Nat
import Overseer.Proofs.Process.Totals

/-! The order in which processes are counted. `totals_exact`: a tree has the totals of its processes
taken parents first, and a list has exact totals, or none, whatever order it stands in. Only the
rates, which are added up as floating-point numbers, may depend on the order. -/

namespace Overseer

/-- Both fail, or neither does and the results are related. -/
inductive Together {α β : Type} (related : α → β → Prop) :
    Except Overflow α → Except Overflow β → Prop
  | failed (e e' : Overflow) : Together related (.error e) (.error e')
  | done {a : α} {b : β} (h : related a b) : Together related (.ok a) (.ok b)

theorem Together.of_failing {α β : Type} {related : α → β → Prop} {x : Except Overflow α}
    {y : Except Overflow β} (hx : ∀ a, x ≠ .ok a) (hy : ∀ b, y ≠ .ok b) :
    Together related x y := by
  cases x with
  | ok a => exact absurd rfl (hx a)
  | error e =>
    cases y with
    | ok b => exact absurd rfl (hy b)
    | error e' => exact .failed e e'

namespace Summary

/-- The same count and the same sums of memory and threads. -/
structure Alike (total total' : Summary) : Prop where
  processes : total'.processes = total.processes
  residentBytes : total'.residentBytes = total.residentBytes
  threads : total'.threads = total.threads

variable {infos infos' : List Snapshot}

/-! ## Sums in any order -/

theorem residentSum_eq (infos : List Snapshot) :
    residentSum infos = (infos.map (·.residentBytes.toNat)).sum := by
  induction infos with
  | nil => rfl
  | cons s infos ih => rw [residentSum_cons, ih, List.map_cons, List.sum_cons]

theorem threadSum_eq (infos : List Snapshot) :
    threadSum infos = (infos.map (·.threads.toNat)).sum := by
  induction infos with
  | nil => rfl
  | cons s infos ih => rw [threadSum_cons, ih, List.map_cons, List.sum_cons]

theorem residentSum_perm (h : infos.Perm infos') : residentSum infos' = residentSum infos := by
  rw [residentSum_eq, residentSum_eq]
  exact (h.map _).sum_nat.symm

theorem threadSum_perm (h : infos.Perm infos') : threadSum infos' = threadSum infos := by
  rw [threadSum_eq, threadSum_eq]
  exact (h.map _).sum_nat.symm

/-! ## Totals -/

theorem alike_of_sums {total total' : Summary} (h : ofList infos = .ok total)
    (h' : ofList infos' = .ok total') (hlength : infos'.length = infos.length)
    (hresident : residentSum infos' = residentSum infos)
    (hthreads : threadSum infos' = threadSum infos) : Alike total total' := by
  obtain ⟨hprocesses, hbytes, hcount⟩ := ofList_counted h
  obtain ⟨hprocesses', hbytes', hcount'⟩ := ofList_counted h'
  refine ⟨?_, ?_, ?_⟩
  · rw [hprocesses', hprocesses, hlength]
  · rw [← UInt64.toNat_inj, hbytes', hbytes, hresident]
  · rw [← UInt64.toNat_inj, hcount', hcount, hthreads]

/-- Lists of one length with the same sums have totals together. -/
theorem ofList_together (hlength : infos'.length = infos.length)
    (hresident : residentSum infos' = residentSum infos)
    (hthreads : threadSum infos' = threadSum infos) :
    Together Alike (ofList infos) (ofList infos') := by
  have hexists := exists_total_iff infos
  have hexists' := exists_total_iff infos'
  rw [hresident, hthreads, ← hexists] at hexists'
  by_cases h : ∃ total, ofList infos = .ok total
  · obtain ⟨total', h'⟩ := hexists'.mpr h
    obtain ⟨total, h⟩ := h
    rw [h, h']
    exact .done (alike_of_sums h h' hlength hresident hthreads)
  · have h' := hexists'.not.mpr h
    exact .of_failing (fun total htotal => h ⟨total, htotal⟩)
      fun total' htotal' => h' ⟨total', htotal'⟩

theorem add_error {t : Summary} {s : Snapshot} {e : Overflow} (h : t.add s = .error e) :
    e = .addition := by
  rw [add_eq] at h
  cases hresident : addChecked t.residentBytes s.residentBytes with
  | error e' =>
    rw [hresident] at h
    cases h
    exact ((addChecked_eq_error_iff _ _ _).mp hresident).2
  | ok residentBytes =>
    cases hthreads : addChecked t.threads s.threads.toUInt64 with
    | error e' =>
      rw [hresident, hthreads] at h
      cases h
      exact ((addChecked_eq_error_iff _ _ _).mp hthreads).2
    | ok threads =>
      rw [hresident, hthreads] at h
      cases h

theorem foldlM_error {t : Summary} {e : Overflow} (h : infos.foldlM add t = .error e) :
    e = .addition := by
  induction infos generalizing t with
  | nil => cases h
  | cons s infos ih =>
    rw [List.foldlM_cons] at h
    cases hadd : t.add s with
    | error e' =>
      rw [hadd] at h
      cases h
      exact add_error hadd
    | ok u =>
      rw [hadd] at h
      exact ih h

theorem ofList_eq_error (h : UInt64.size ≤ residentSum infos) :
    ofList infos = .error .addition := by
  cases hlist : ofList infos with
  | ok total =>
    have hfits := (exists_total_iff infos).mp ⟨total, hlist⟩
    omega
  | error e => rw [foldlM_error hlist]

/-- Processes that are not more than there are ids have totals if their memory fits. -/
theorem exists_total (hlength : infos.length ≤ UInt32.size)
    (h : residentSum infos < UInt64.size) : ∃ total, ofList infos = .ok total :=
  (exists_total_iff infos).mpr ⟨h, threadSum_lt hlength⟩

end Summary

/-- A tree has the totals of its processes, parents first. Of fewer than `2 ^ 32` processes there
are none, in whatever order, just if their memory leaves 64 bits; otherwise they are exact in every
order. -/
theorem totals_exact :
    (∀ t : ProcessTree, Summary.ofTree t = Summary.ofList (t.preorder.map (·.info))) ∧
    ∀ infos infos' : List Snapshot, infos.length < UInt32.size → infos.Perm infos' →
      (UInt64.size ≤ (infos.map (·.residentBytes.toNat)).sum →
        Summary.ofList infos = .error .addition ∧ Summary.ofList infos' = .error .addition) ∧
      ((infos.map (·.residentBytes.toNat)).sum < UInt64.size →
        ∃ total total', Summary.ofList infos = .ok total ∧ Summary.ofList infos' = .ok total' ∧
          total.processes = infos.length ∧
          total.residentBytes.toNat = (infos.map (·.residentBytes.toNat)).sum ∧
          total.threads.toNat = (infos.map (·.threads.toNat)).sum ∧
          Summary.Alike total total') := by
  refine ⟨fun t => ?_, fun infos infos' hlength hperm => ?_⟩
  · have hnodes : t.nodes = t.preorder := by
      rw [ProcessTree.nodes, ProcessTree.walk_eq_preorderAll]
      simp [ProcessTree.preorderAll]
    rw [Summary.ofTree_eq_ofList, ProcessTree.infos, hnodes]
  · have hlength' : infos'.length ≤ UInt32.size := hperm.length_eq ▸ hlength.le
    have hresident := Summary.residentSum_perm hperm
    have hthreads := Summary.threadSum_perm hperm
    rw [← Summary.residentSum_eq, ← Summary.threadSum_eq]
    constructor
    · intro hover
      exact ⟨Summary.ofList_eq_error hover, Summary.ofList_eq_error (hresident ▸ hover)⟩
    · intro hfits
      obtain ⟨total, htotal⟩ := Summary.exists_total hlength.le hfits
      obtain ⟨total', htotal'⟩ := Summary.exists_total hlength' (hresident ▸ hfits)
      obtain ⟨hprocesses, hbytes, hcount⟩ := Summary.ofList_counted htotal
      exact ⟨total, total', htotal, htotal', hprocesses, hbytes, hcount,
        Summary.alike_of_sums htotal htotal' hperm.length_eq.symm hresident hthreads⟩

/-- A process with some memory, and one with a byte. -/
def duo (resident : UInt64) : List Snapshot :=
  [{ pid := 1, residentBytes := resident, threads := 2 },
    { pid := 2, residentBytes := 1, threads := 3 }]

/-- The largest memory leaves no room for another byte, the next smaller one does. -/
theorem totals_exact_full :
    (UInt64.size ≤ ((duo (-1)).map (·.residentBytes.toNat)).sum ∧
      Summary.ofList (duo (-1)).reverse = .error .addition) ∧
    (((duo (-2)).map (·.residentBytes.toNat)).sum < UInt64.size ∧
      ∃ total, Summary.ofList (duo (-2)).reverse = .ok total ∧
        total.processes = 2 ∧ total.residentBytes = -1 ∧ total.threads = 5) := by
  obtain ⟨-, htotals⟩ := totals_exact
  have hperm (n : UInt64) : (duo n).Perm (duo n).reverse :=
    (List.reverse_perm (duo n)).symm
  have hover : UInt64.size ≤ ((duo (-1)).map (·.residentBytes.toNat)).sum := by decide
  have hfits : ((duo (-2)).map (·.residentBytes.toNat)).sum < UInt64.size := by decide
  refine ⟨⟨hover, ((htotals _ _ (by decide) (hperm (-1))).1 hover).2⟩, hfits, ?_⟩
  obtain ⟨total, total', -, htotal', hprocesses, hbytes, hthreads, halike⟩ :=
    (htotals _ _ (by decide) (hperm (-2))).2 hfits
  refine ⟨total', htotal', ?_, ?_, ?_⟩
  · rw [halike.processes, hprocesses]
    rfl
  · rw [halike.residentBytes, ← UInt64.toNat_inj, hbytes]
    rfl
  · rw [halike.threads, ← UInt64.toNat_inj, hthreads]
    rfl

end Overseer
