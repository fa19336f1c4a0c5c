import Overseer.Proofs.Monitor.Sampling

/-! What polls make of a process that is not valid. `passedOver_of_invalid`: a tree that comes to it
has a leaf there with what was read, a family leaves it out, and no poll samples it. -/

namespace Overseer.Monitor

open ProcessTree (preorderAll)

variable {src : Source} {instant : Pid → Nat} {samples : CpuSamples} {pid root : Pid}
  {o : Observation}

/-! ## What was searched -/

/-- A search does not change the sample of a process and finds nothing below it. -/
structure Passed (info : Snapshot) (samples : CpuSamples) (pid : Pid) (trees : List ProcessTree)
    (after : CpuSamples) : Prop where
  leaf : ∀ n ∈ preorderAll trees, n.info.pid = pid → n = .leaf info
  sample : after[pid]? = samples[pid]?

theorem taken_invalid (hinvalid : o.info.isValid = false) (instant : Nat) :
    taken o instant = none := by
  rw [taken, hinvalid]
  rfl

theorem passed_of_depthFirst (hkeyed : ∀ p o, src.read p = .ok o → o.info.pid = p)
    (hread : src.read pid = .ok o) (hinvalid : o.info.isValid = false) {m : Met} {pids : List Pid}
    {trees : List ProcessTree} {m' : m.After}
    (hrun : depthFirst src instant m pids = .ok (trees, m')) :
    Passed o.info m.samples pid trees m'.1.samples := by
  have hsearched := depthFirst_searched src instant hkeyed _ _ _ _ hrun
  have hsampled := depthFirst_sampled src instant hkeyed _ _ _ _ hrun
  refine ⟨fun n hn hpid => ?_, ?_⟩
  · obtain ⟨o', ho', htold⟩ := hsampled.told n hn
    rw [hpid, hread] at ho'
    cases ho'
    rw [reported, taken_invalid hinvalid] at htold
    have hinfo : n.info = o.info := htold
    have hleaf := hsearched.leaf n hn (by rw [hinfo, hinvalid])
    obtain ⟨info, below⟩ := n
    cases hinfo
    cases hleaf
    rfl
  · have hnone : sampleOf src instant pid = none := by
      rw [sampleOf, hread]
      exact taken_invalid hinvalid (instant pid)
    rw [hsampled.kept, hnone, Option.none_or, ite_self]

theorem exists_depthFirst_of_tree {poll : Poll ProcessTree}
    (h : tree src instant samples root = .ok poll) :
    ∃ m : Met.After ⟨.empty, samples⟩,
      depthFirst src instant ⟨.empty, samples⟩ [root] = .ok ([poll.result], m) ∧
      poll.samples = (evict m.1.samples m.1.visited).1 := by
  cases hrun : depthFirst src instant ⟨.empty, samples⟩ [root] with
  | error e =>
    rw [tree_depthFirst, hrun] at h
    cases h
  | ok found =>
    obtain ⟨trees, m⟩ := found
    obtain ⟨result, rfl⟩ := depthFirst_root _ _ _ _ _ _ (by simp) hrun
    rw [tree_of_depthFirst hrun] at h
    cases h
    exact ⟨m, rfl, rfl⟩

/-- The family of a valid root is read off the recursive search, which fails where it does. -/
theorem exists_depthFirst_of_family {poll : Poll (List Snapshot)} {info : Snapshot}
    {samples' : CpuSamples} (hroot : snapshot src instant samples root = .ok (info, samples'))
    (hvalid : info.isValid) (h : family src instant samples root true = .ok poll) :
    ∃ (result : ProcessTree) (m : Met.After ⟨.empty, samples⟩),
      depthFirst src instant ⟨.empty, samples⟩ [root] = .ok ([result], m) ∧
      poll.result = validInfos [result] ∧
      poll.samples = (evict m.1.samples m.1.visited).1 := by
  cases hrun : depthFirst src instant ⟨.empty, samples⟩ [root] with
  | error e =>
    have hsearch := searchFamily_depthFirst src instant ⟨.empty, samples⟩ [root] #[] []
    rw [hrun, List.append_nil, searchFamily, if_neg (by simp), hroot] at hsearch
    dsimp only at hsearch
    rw [if_pos hvalid, List.append_nil] at hsearch
    have hfail : searchFamily src instant ⟨PidSet.single root, #[info], samples'⟩
        (src.children root) = .error e := hsearch
    rw [family, hroot] at h
    dsimp only at h
    rw [if_pos hvalid, if_pos rfl, hfail] at h
    cases h
  | ok found =>
    obtain ⟨trees, m⟩ := found
    obtain ⟨result, rfl⟩ := depthFirst_root _ _ _ _ _ _ (by simp) hrun
    have hresult : result.info.isValid := by
      obtain ⟨info', samples'', below, m₁, hread, -, htrees, -⟩ := depthFirst_single (by simp) hrun
      cases htrees
      rw [hroot] at hread
      cases hread
      exact hvalid
    rw [family_of_depthFirst hrun hresult] at h
    cases h
    exact ⟨result, m, rfl, rfl, rfl⟩

/-! ## Polls -/

/-- Polls make nothing of a process but a leaf with what was read, where a tree comes to it. No
family has it, and no poll samples it: what there is of it afterwards was there before. -/
structure PassedOver (src : Source) (pid : Pid) (read : Snapshot) : Prop where
  alone : ∀ instant samples, info src instant samples pid = .ok ⟨read, samples, []⟩
  tree : ∀ instant samples root poll, tree src instant samples root = .ok poll →
    (∀ n ∈ poll.result.nodes, n.info.pid = pid → n = .leaf read) ∧
      ∀ s, poll.samples[pid]? = some s → samples[pid]? = some s
  family : ∀ instant samples root descendants poll,
    family src instant samples root descendants = .ok poll →
      (∀ i ∈ poll.result, i.pid ≠ pid) ∧ ∀ s, poll.samples[pid]? = some s → samples[pid]? = some s

theorem Passed.evicted {info : Snapshot} {trees : List ProcessTree} {after : CpuSamples}
    (h : Passed info samples pid trees after) (visited : PidSet) {s : CpuSample}
    (hs : (evict after visited).1[pid]? = some s) : samples[pid]? = some s := by
  rw [evict_samples] at hs
  split at hs
  · rw [← h.sample, hs]
  · cases hs

theorem family_passed (hkeyed : ∀ p o, src.read p = .ok o → o.info.pid = p)
    (hread : src.read pid = .ok o) (hinvalid : o.info.isValid = false)
    {poll : Poll (List Snapshot)} (h : family src instant samples root true = .ok poll) :
    (∀ i ∈ poll.result, i.pid ≠ pid) ∧
      ∀ s, poll.samples[pid]? = some s → samples[pid]? = some s := by
  cases hroot : snapshot src instant samples root with
  | error e =>
    rw [family, hroot] at h
    cases h
  | ok found =>
    obtain ⟨info, samples'⟩ := found
    by_cases hvalid : info.isValid = true
    · obtain ⟨result, m, hrun, hresult, hkept⟩ := exists_depthFirst_of_family hroot hvalid h
      have hpassed := passed_of_depthFirst hkeyed hread hinvalid hrun
      refine ⟨fun i hi hpid => ?_, fun s hs => hpassed.evicted m.1.visited (hkept ▸ hs)⟩
      rw [hresult, validInfos, List.mem_filter] at hi
      obtain ⟨hmem, hivalid⟩ := hi
      obtain ⟨n, hn, rfl⟩ := List.mem_map.mp hmem
      rw [hpassed.leaf n hn hpid, ProcessTree.leaf, ProcessTree.info, hinvalid] at hivalid
      cases hivalid
    · obtain ⟨o', ho', -, hsame⟩ := snapshot_read _ _ _ _ _ _ hroot
      rw [family_gone src instant samples root true ho' (hsame ▸ hvalid)] at h
      cases h
      exact ⟨by simp, fun s hs => hs⟩

theorem passedOver_of_invalid (hkeyed : ∀ p o, src.read p = .ok o → o.info.pid = p)
    (hread : src.read pid = .ok o) (hinvalid : o.info.isValid = false) :
    PassedOver src pid o.info where
  alone instant samples := by
    rw [info, snapshot_invalid src instant samples pid o hread (by simp [hinvalid])]
  tree instant samples root poll h := by
    obtain ⟨m, hrun, hkept⟩ := exists_depthFirst_of_tree h
    have hpassed := passed_of_depthFirst hkeyed hread hinvalid hrun
    refine ⟨fun n hn => ?_, fun s hs => hpassed.evicted m.1.visited (hkept ▸ hs)⟩
    rw [ProcessTree.nodes, ProcessTree.walk_eq_preorderAll] at hn
    exact hpassed.leaf n hn
  family instant samples root descendants poll h := by
    cases descendants with
    | true => exact family_passed hkeyed hread hinvalid h
    | false =>
      -- A family without descendants is one of processes that have no children.
      rw [family_childless] at h
      refine family_passed ?_ ?_ hinvalid h
      · exact hkeyed
      · exact hread

end Overseer.Monitor
