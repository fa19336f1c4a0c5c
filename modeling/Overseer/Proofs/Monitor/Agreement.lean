import Overseer.Proofs.Monitor.Reachable
import Overseer.Proofs.Process.Totals

/-! The polls of descendants agree with plain recursion and with each other. `tree_recursive`: the
work list gives the tree of the recursive search, read in the order of its nodes.
`family_matches_tree`: a poll of the family gives the valid processes of that tree and leaves the
same samples. -/

namespace Overseer.Monitor

open ProcessTree (preorderAll)

/-! ## Trees -/

theorem layout_infos (parent : Option Nat) (start : Nat) (trees : List ProcessTree) :
    (layout parent start trees).map (·.info) = (preorderAll trees).map (·.info) := by
  fun_induction layout parent start trees with
  | case1 => rfl
  | case2 parent start info cs rest below beside =>
    rw [preorderAll_node, List.map_cons, List.map_append, below, beside, List.map_cons,
      List.map_append]
    rfl

theorem infos_eq (t : ProcessTree) : t.infos = (preorderAll [t]).map (·.info) := by
  rw [ProcessTree.infos, ProcessTree.nodes, ProcessTree.walk_eq_preorderAll]

section Recursion

variable {src : Source} {instant : Pid → Nat} {samples : CpuSamples} {root : Pid}
  {result : ProcessTree} {m : Met.After ⟨.empty, samples⟩}

theorem searchTree_of_depthFirst
    (h : depthFirst src instant ⟨.empty, samples⟩ [root] = .ok ([result], m)) :
    searchTree src instant ⟨.empty, #[], samples⟩ [(root, none)] =
      .ok ⟨m.1.visited, (layout none 0 [result]).toArray, m.1.samples⟩ := by
  have hsearch := searchTree_depthFirst src instant ⟨.empty, samples⟩ [root] none #[] []
  rw [h, List.map_singleton, List.append_nil] at hsearch
  simpa [searchTree] using hsearch

theorem tree_of_depthFirst
    (h : depthFirst src instant ⟨.empty, samples⟩ [root] = .ok ([result], m)) :
    tree src instant samples root = .ok ⟨result, (evict m.1.samples m.1.visited).1,
      (evict m.1.samples m.1.visited).2 ++ [.treeSampled result.length]⟩ := by
  have hlength : ProcessTree.countAll [result] = result.length := by
    rw [← length_layout none 0, ← List.length_map (f := Visit.info), layout_infos, ← infos_eq,
      ProcessTree.infos, List.length_map, ProcessTree.length]
  rw [tree_depthFirst, h]
  dsimp only
  rw [assemble_layout, hlength]

theorem exists_depthFirst (src : Source) (hread : ∀ p, ∃ o, src.read p = .ok o)
    (instant : Pid → Nat) (samples : CpuSamples) (root : Pid) :
    ∃ (result : ProcessTree) (m : Met.After ⟨.empty, samples⟩),
      depthFirst src instant ⟨.empty, samples⟩ [root] = .ok ([result], m) := by
  obtain ⟨⟨trees, m⟩, hrun⟩ := depthFirst_total src instant hread ⟨.empty, samples⟩ [root]
  obtain ⟨result, rfl⟩ := depthFirst_root _ _ _ _ _ _ (by simp) hrun
  exact ⟨result, m, hrun⟩

theorem isValid_root {o : Observation} (ho : src.read root = .ok o)
    (h : depthFirst src instant ⟨.empty, samples⟩ [root] = .ok ([result], m)) :
    result.info.isValid = o.info.isValid := by
  obtain ⟨info, samples', below, m₁, hread, -, htrees, -⟩ := depthFirst_single (by simp) h
  cases htrees
  obtain ⟨o', ho', -, hvalid⟩ := snapshot_read _ _ _ _ _ _ hread
  rw [ho] at ho'
  cases ho'
  exact hvalid

end Recursion

theorem exists_read (t : Table) (p : Pid) : ∃ o, t.source.read p = .ok o := ⟨t.read p, rfl⟩

/-- The work list computes the recursive search: its tree, the samples that it leaves, and the
row of its nodes, in which each process stands with the place of the parent it was found from. -/
theorem tree_recursive (t : Table) (instant : Pid → Nat) (samples : CpuSamples) (root : Pid) :
    ∃ (result : ProcessTree) (m : Met.After ⟨.empty, samples⟩) (search : TreeSearch),
      depthFirst t.source instant ⟨.empty, samples⟩ [root] = .ok ([result], m) ∧
      tree t.source instant samples root = .ok ⟨result, (evict m.1.samples m.1.visited).1,
        (evict m.1.samples m.1.visited).2 ++ [.treeSampled result.length]⟩ ∧
      searchTree t.source instant ⟨.empty, #[], samples⟩ [(root, none)] = .ok search ∧
      search.visits.toList.map (·.info) = result.infos ∧
      search.visits.toList = layout none 0 [result] := by
  obtain ⟨result, m, hrun⟩ := exists_depthFirst t.source (exists_read t) instant samples root
  refine ⟨result, m, _, hrun, tree_of_depthFirst hrun, searchTree_of_depthFirst hrun, ?_, rfl⟩
  rw [layout_infos, infos_eq]

/-! ## Families -/

/-- What is known of the valid processes in some trees, in order. -/
def validInfos (trees : List ProcessTree) : List Snapshot :=
  ((preorderAll trees).map (·.info)).filter (·.isValid)

theorem validInfos_node (info : Snapshot) (below beside : List ProcessTree) :
    validInfos (.node info below :: beside) =
      (if info.isValid then [info] else []) ++ validInfos below ++ validInfos beside := by
  rw [validInfos, preorderAll_node, List.map_cons, List.map_append, List.filter_cons,
    List.filter_append]
  cases hvalid : info.isValid <;> simp [hvalid, validInfos, ProcessTree.info]

private theorem searchFamily_fresh (src : Source) (instant : Pid → Nat) (s : FamilySearch)
    (pid : Pid) (work : List Pid) (info : Snapshot) (samples : CpuSamples) (h : pid ∉ s.visited)
    (hread : snapshot src instant s.samples pid = .ok (info, samples)) :
    searchFamily src instant s (pid :: work) =
      searchFamily src instant ⟨s.visited.insert pid,
          s.family ++ (if info.isValid then [info] else []).toArray, samples⟩
        ((if info.isValid then src.children pid else []) ++ work) := by
  rw [searchFamily, if_neg h, hread]
  cases hvalid : info.isValid <;> simp [hvalid]

/-- Some ids are searched in full, with all that is below them, before the rest of the work. -/
theorem searchFamily_depthFirst (src : Source) (instant : Pid → Nat) (m : Met) (pids : List Pid)
    (found : Array Snapshot) (work : List Pid) :
    searchFamily src instant ⟨m.visited, found, m.samples⟩ (pids ++ work) =
      match depthFirst src instant m pids with
      | .error e => .error e
      | .ok (trees, ⟨m', _⟩) =>
        searchFamily src instant ⟨m'.visited, found ++ (validInfos trees).toArray, m'.samples⟩
          work := by
  fun_induction depthFirst src instant m pids generalizing found work with
  | case1 m => simp [validInfos, preorderAll]
  | case2 m pid rest h ih =>
    rw [List.cons_append, searchFamily, if_pos h]
    exact ih found work
  | case3 m pid rest h e hread =>
    rw [List.cons_append, searchFamily, if_neg h, hread]
  | case4 m pid rest h info samples hread first e hbelow below =>
    simp only [dite_eq_ite] at hbelow below
    rw [List.cons_append, searchFamily_fresh _ _ _ _ _ _ _ h hread, below, hbelow]
  | case5 m pid rest h info samples hread first trees m₁ h₁ hbelow e hbeside below beside =>
    simp only [dite_eq_ite] at hbelow below
    rw [List.cons_append, searchFamily_fresh _ _ _ _ _ _ _ h hread, below, hbelow]
    exact (beside _ _).trans (by rw [hbeside])
  | case6 m pid rest h info samples hread first trees m₁ h₁ hbelow others m₂ h₂ hbeside below
      beside =>
    simp only [dite_eq_ite] at hbelow below
    rw [List.cons_append, searchFamily_fresh _ _ _ _ _ _ _ h hread, below, hbelow]
    refine (beside _ _).trans ?_
    rw [hbeside]
    dsimp only
    rw [validInfos_node]
    simp only [Array.append_assoc, List.append_toArray, List.append_assoc]

section Family

variable {src : Source} {instant : Pid → Nat} {samples : CpuSamples} {root : Pid}
  {result : ProcessTree} {m : Met.After ⟨.empty, samples⟩}

/-- Below a valid root, the work list comes to what the recursive search of the root does. -/
theorem searchFamily_of_depthFirst
    (h : depthFirst src instant ⟨.empty, samples⟩ [root] = .ok ([result], m))
    (hroot : result.info.isValid) :
    ∃ (info : Snapshot) (samples' : CpuSamples),
      snapshot src instant samples root = .ok (info, samples') ∧ info.isValid ∧
      searchFamily src instant ⟨PidSet.single root, #[info], samples'⟩ (src.children root) =
        .ok ⟨m.1.visited, (validInfos [result]).toArray, m.1.samples⟩ := by
  obtain ⟨info, samples', below, m₁, hread, hbelow, htrees, hm⟩ :=
    depthFirst_single (by simp) h
  cases htrees
  have hvalid : info.isValid = true := hroot
  have hsearch := searchFamily_depthFirst src instant ⟨PidSet.single root, samples'⟩
    (src.children root) #[info] []
  rw [if_pos hvalid] at hbelow
  rw [List.append_nil, show depthFirst src instant ⟨PidSet.single root, samples'⟩ _ = _ from hbelow]
    at hsearch
  refine ⟨info, samples', hread, hvalid, ?_⟩
  rw [hsearch, hm, validInfos_node, if_pos hvalid]
  simp [searchFamily, validInfos, preorderAll]

theorem family_of_depthFirst
    (h : depthFirst src instant ⟨.empty, samples⟩ [root] = .ok ([result], m))
    (hroot : result.info.isValid) :
    family src instant samples root true = .ok ⟨validInfos [result],
      (evict m.1.samples m.1.visited).1, (evict m.1.samples m.1.visited).2⟩ := by
  obtain ⟨info, samples', hread, hvalid, hsearch⟩ := searchFamily_of_depthFirst h hroot
  rw [family, hread]
  dsimp only
  rw [if_pos hvalid, if_pos rfl, hsearch]

end Family

/-- Where the root is valid, the family is the valid processes of the tree, parents first, and
both polls leave the same samples. So the totals are the same if all are valid. Otherwise, unless
the memory of the tree leaves 64 bits, they differ by one process for each that is not. -/
theorem family_matches_tree (t : Table) (instant : Pid → Nat) (samples : CpuSamples) (root : Pid)
    (hroot : (t.read root).info.isValid) :
    ∃ (whole : Poll ProcessTree) (members : Poll (List Snapshot)),
      tree t.source instant samples root = .ok whole ∧
      family t.source instant samples root true = .ok members ∧
      members.result = whole.result.infos.filter (·.isValid) ∧
      members.samples = whole.samples ∧
      ((∀ s ∈ whole.result.infos, s.isValid) →
        Summary.ofTree whole.result = Summary.ofList members.result) ∧
      ((∃ total, Summary.ofTree whole.result = .ok total) ↔
        residentSum whole.result.infos < UInt64.size) ∧
      ∀ total, Summary.ofTree whole.result = .ok total →
        ∃ part, Summary.ofList members.result = .ok part ∧
          total.processes = part.processes + whole.result.infos.countP (!·.isValid) := by
  obtain ⟨result, m, hrun⟩ := exists_depthFirst t.source (exists_read t) instant samples root
  have hs := depthFirst_searched t.source instant (keyed_source t) _ _ _ _ hrun
  have hmembers : validInfos [result] = result.infos.filter (·.isValid) := by
    rw [validInfos, infos_eq]
  have hpids : (result.infos.map (·.pid)).Nodup := by
    rw [infos_eq, List.map_map]
    exact hs.nodup
  have hlength := length_le_of_nodup_pids hpids
  have hexists : (∃ total, Summary.ofTree result = .ok total) ↔
      residentSum result.infos < UInt64.size := by
    rw [Summary.ofTree_eq_ofList, Summary.exists_total_iff]
    exact and_iff_left (threadSum_lt hlength)
  have hvalid : result.info.isValid := (isValid_root rfl hrun).trans hroot
  refine ⟨_, _, tree_of_depthFirst hrun, family_of_depthFirst hrun hvalid, hmembers, rfl,
    fun hall => ?_, hexists, fun total htotal => ?_⟩
  · dsimp only at hall ⊢
    rw [Summary.ofTree_eq_ofList, hmembers, List.filter_eq_self.mpr hall]
  · have hfits := hexists.mp ⟨total, htotal⟩
    have hfilter := List.length_filter_le (·.isValid) result.infos
    obtain ⟨part, hpart⟩ := (Summary.exists_total_iff (result.infos.filter (·.isValid))).mpr
      ⟨(residentSum_filter_le _ _).trans_lt hfits, threadSum_lt (hfilter.trans hlength)⟩
    dsimp only at htotal ⊢
    rw [Summary.ofTree_eq_ofList] at htotal
    rw [hmembers]
    refine ⟨part, hpart, ?_⟩
    rw [(Summary.ofList_counted htotal).1, (Summary.ofList_counted hpart).1,
      List.length_eq_countP_add_countP (·.isValid), List.countP_eq_length_filter]
    simp

/-- A process with a child that is gone and one that names it as its own child. -/
def tangled : Table :=
  ((noProcesses.insert 1 0 "init" 100).insert 2 1 "worker" 200).setChildren 1 [2, 9, 2]
    |>.setChildren 2 [1]

theorem family_matches_tree_tangled :
    (tangled.read 1).info.isValid ∧
      ∃ (whole : Poll ProcessTree) (members : Poll (List Snapshot)),
        tree tangled.source (fun _ => 0) ∅ 1 = .ok whole ∧
        family tangled.source (fun _ => 0) ∅ 1 true = .ok members ∧
        members.result = whole.result.infos.filter (·.isValid) ∧
        members.samples = whole.samples := by
  have hroot : (tangled.read 1).info.isValid := by decide
  obtain ⟨whole, members, htree, hfamily, hresult, hsamples, -⟩ :=
    family_matches_tree tangled (fun _ => 0) ∅ 1 hroot
  exact ⟨hroot, whole, members, htree, hfamily, hresult, hsamples⟩

end Overseer.Monitor
