import Overseer.Monitor.DepthFirst

/-! The work list against plain recursion. The search writes the trees into one row, each
node before what is below it, and the row hung together from its end gives the trees back. -/

namespace Overseer.Monitor

open ProcessTree (countAll)

/-! ## Trees in a row -/

/-- The row of some trees under one parent, whose first place is `start`. -/
def layout (parent : Option Nat) (start : Nat) : List ProcessTree → List Visit
  | [] => []
  | .node info cs :: rest =>
    ⟨info, parent⟩ :: (layout (some start) (start + 1) cs ++
      layout parent (start + 1 + countAll cs) rest)
termination_by trees => countAll trees
decreasing_by
  · simp only [countAll, ProcessTree.count]; omega
  · simp only [countAll, ProcessTree.count]; omega

theorem length_layout (parent : Option Nat) (start : Nat) (trees : List ProcessTree) :
    (layout parent start trees).length = countAll trees := by
  fun_induction layout parent start trees with
  | case1 => rfl
  | case2 parent start info cs rest below beside =>
    simp only [List.length_cons, List.length_append, below, beside, countAll, ProcessTree.count]
    omega

/-! ## Hanging a row -/

private theorem getD_modify (g : Array (List ProcessTree)) (p i : Nat) (t : ProcessTree)
    (hp : p < g.size) :
    (g.modify p (t :: ·)).getD i [] = if i = p then t :: g.getD i [] else g.getD i [] := by
  rw [Array.getD_eq_getD_getElem?, Array.getD_eq_getD_getElem?, Array.getElem?_modify]
  by_cases h : p = i
  · subst h
    rw [if_pos rfl, if_pos rfl, Array.getElem?_eq_getElem hp]
    rfl
  · rw [if_neg h, if_neg (Ne.symm h)]

/-- The places before a row change only in that its trees are put in front of the other
children of their parent. -/
private theorem hang_row (p start : Nat) (trees : List ProcessTree)
    (g : Array (List ProcessTree)) (hp : p < start) (hsize : start + countAll trees ≤ g.size)
    (hfree : ∀ i, start ≤ i → i < start + countAll trees → g.getD i [] = []) :
    ∃ g' : Array (List ProcessTree), g'.size = g.size ∧
      (∀ i < start, g'.getD i [] = if i = p then trees ++ g.getD i [] else g.getD i []) ∧
      ∀ earlier, hang g (((layout (some p) start trees).zipIdx start).reverse ++ earlier) =
        hang g' earlier := by
  generalize hparent : some p = parent
  fun_induction layout parent start trees generalizing p g with
  | case1 => exact ⟨g, rfl, by simp, by simp⟩
  | case2 parent start info cs rest below beside =>
    subst hparent
    simp only [countAll, ProcessTree.count] at hsize hfree
    -- the row is taken from its end: first the trees beside this one, then those below it
    obtain ⟨g₁, hsize₁, hplaces₁, hhang₁⟩ := beside p g (by omega) (by omega)
      (fun i hi hlt => hfree i (by omega) (by omega)) rfl
    have hfree₁ : ∀ i, start ≤ i → i < start + 1 + countAll cs → g₁.getD i [] = [] := by
      intro i hi hlt
      rw [hplaces₁ i hlt, if_neg (by omega)]
      exact hfree i hi (by omega)
    obtain ⟨g₂, hsize₂, hplaces₂, hhang₂⟩ := below start g₁ (by omega) (by omega)
      (fun i hi hlt => hfree₁ i (by omega) hlt) rfl
    have hown : g₂.getD start [] = cs := by
      rw [hplaces₂ start (by omega), if_pos rfl, hfree₁ start (by omega) (by omega),
        List.append_nil]
    refine ⟨g₂.modify p (.node info cs :: ·), by simp [hsize₁, hsize₂], ?_, ?_⟩
    · intro i hi
      rw [getD_modify _ _ _ _ (by omega), hplaces₂ i (by omega), hplaces₁ i (by omega),
        if_neg (show i ≠ start by omega)]
      by_cases h : i = p
      · simp only [if_pos h, List.cons_append]
      · simp only [if_neg h]
    · intro earlier
      rw [List.zipIdx_cons, List.zipIdx_append, length_layout, List.reverse_cons,
        List.reverse_append, List.append_assoc, List.append_assoc, hhang₁, hhang₂]
      simp only [List.singleton_append, hang, hown]

theorem assemble_layout (t : ProcessTree) (root : Pid) :
    assemble (layout none 0 [t]).toArray root = t := by
  obtain ⟨info, cs⟩ := t
  have hrow : layout none 0 [.node info cs] = ⟨info, none⟩ :: layout (some 0) 1 cs := by
    simp [layout]
  have hlength : (layout none 0 [.node info cs]).length = countAll cs + 1 := by
    rw [hrow, List.length_cons, length_layout]
  have hfree : ∀ i, (Array.replicate (countAll cs + 1) ([] : List ProcessTree)).getD i [] = [] := by
    intro i
    rw [Array.getD_eq_getD_getElem?, Array.getElem?_replicate]
    split <;> rfl
  obtain ⟨g, hsize, hplaces, hhang⟩ := hang_row 0 1 cs (.replicate (countAll cs + 1) [])
    (by omega) (by simp; omega) (fun i _ _ => hfree i)
  have hbelow : g.getD 0 [] = cs := by
    rw [hplaces 0 (by omega), if_pos rfl, hfree, List.append_nil]
  unfold assemble
  rw [List.size_toArray, hlength, hrow, List.zipIdx_cons, List.reverse_cons, hhang]
  simp [hang, hbelow]

/-! ## The search writes the row -/

private theorem searchTree_fresh (src : Source) (instant : Pid → Nat) (s : TreeSearch) (pid : Pid)
    (parent : Option Nat) (work : List (Pid × Option Nat)) (info : Snapshot)
    (samples : CpuSamples) (h : pid ∉ s.visited)
    (hread : snapshot src instant s.samples pid = .ok (info, samples)) :
    searchTree src instant s ((pid, parent) :: work) =
      searchTree src instant ⟨s.visited.insert pid, s.visits.push ⟨info, parent⟩, samples⟩
        ((if info.isValid then src.children pid else []).map (·, some s.visits.size) ++ work) := by
  rw [searchTree, if_neg h, hread]
  cases hvalid : info.isValid <;> simp [hvalid]

private theorem row_node (visits : Array Visit) (info : Snapshot) (parent : Option Nat)
    (trees others : List ProcessTree) :
    let row := visits.push ⟨info, parent⟩ ++
      (layout (some visits.size) (visits.push ⟨info, parent⟩).size trees).toArray
    row ++ (layout parent row.size others).toArray =
      visits ++ (layout parent visits.size (.node info trees :: others)).toArray := by
  simp only [Array.size_append, Array.size_push, List.size_toArray, length_layout]
  apply Array.ext'
  simp [layout]

/-- Some ids are searched in full, with all that is below them, before the rest of the work. -/
theorem searchTree_depthFirst (src : Source) (instant : Pid → Nat) (m : Met) (pids : List Pid)
    (parent : Option Nat) (visits : Array Visit) (work : List (Pid × Option Nat)) :
    searchTree src instant ⟨m.visited, visits, m.samples⟩ (pids.map (·, parent) ++ work) =
      match depthFirst src instant m pids with
      | .error e => .error e
      | .ok (trees, ⟨m', _⟩) =>
        searchTree src instant
          ⟨m'.visited, visits ++ (layout parent visits.size trees).toArray, m'.samples⟩ work := by
  fun_induction depthFirst src instant m pids generalizing parent visits work with
  | case1 m => simp [layout]
  | case2 m pid rest h ih =>
    rw [List.map_cons, List.cons_append, searchTree, if_pos h]
    exact ih parent visits work
  | case3 m pid rest h e hread =>
    rw [List.map_cons, List.cons_append, searchTree, if_neg h, hread]
  | case4 m pid rest h info samples hread first e hbelow below =>
    simp only [dite_eq_ite] at hbelow below
    rw [List.map_cons, List.cons_append, searchTree_fresh _ _ _ _ _ _ _ _ h hread, below, hbelow]
  | case5 m pid rest h info samples hread first trees m₁ h₁ hbelow e hbeside below beside =>
    simp only [dite_eq_ite] at hbelow below
    rw [List.map_cons, List.cons_append, searchTree_fresh _ _ _ _ _ _ _ _ h hread, below, hbelow]
    exact (beside _ _ _).trans (by rw [hbeside])
  | case6 m pid rest h info samples hread first trees m₁ h₁ hbelow others m₂ h₂ hbeside below
      beside =>
    simp only [dite_eq_ite] at hbelow below
    rw [List.map_cons, List.cons_append, searchTree_fresh _ _ _ _ _ _ _ _ h hread, below, hbelow]
    refine (beside _ _ _).trans ?_
    rw [hbeside]
    exact congrArg (searchTree src instant ⟨m₂.visited, ·, m₂.samples⟩ work)
      (row_node visits info parent trees others)

/-! ## A poll -/

/-- The search of one process: it is read, and what is searched below it is its tree. -/
theorem depthFirst_single {src : Source} {instant : Pid → Nat} {m : Met} {root : Pid}
    {trees : List ProcessTree} {m' : m.After} (hnew : root ∉ m.visited)
    (h : depthFirst src instant m [root] = .ok (trees, m')) :
    ∃ (info : Snapshot) (samples : CpuSamples) (below : List ProcessTree)
      (m₁ : Met.After ⟨m.visited.insert root, samples⟩),
      snapshot src instant m.samples root = .ok (info, samples) ∧
      depthFirst src instant ⟨m.visited.insert root, samples⟩
        (if info.isValid then src.children root else []) = .ok (below, m₁) ∧
      trees = [.node info below] ∧ m'.1 = m₁.1 := by
  rw [depthFirst, dif_neg hnew] at h
  dsimp only at h
  split at h
  · cases h
  · next info samples hread =>
    split at h
    · cases h
    · next below m₁ h₁ hbelow =>
      rw [depthFirst] at h
      cases h
      exact ⟨info, samples, below, ⟨m₁, h₁⟩, hread, by simpa using hbelow, rfl, rfl⟩

theorem depthFirst_root (src : Source) (instant : Pid → Nat) (m : Met) (root : Pid)
    (trees : List ProcessTree) (m' : m.After) (hnew : root ∉ m.visited)
    (h : depthFirst src instant m [root] = .ok (trees, m')) : ∃ t, trees = [t] := by
  obtain ⟨info, -, below, -, -, -, rfl, -⟩ := depthFirst_single hnew h
  exact ⟨.node info below, rfl⟩

theorem tree_depthFirst (src : Source) (instant : Pid → Nat) (samples : CpuSamples) (root : Pid) :
    tree src instant samples root =
      match depthFirst src instant ⟨.empty, samples⟩ [root] with
      | .error e => .error e
      | .ok (trees, ⟨m, _⟩) =>
        .ok ⟨assemble (layout none 0 trees).toArray root, (evict m.samples m.visited).1,
          (evict m.samples m.visited).2 ++ [.treeSampled (countAll trees)]⟩ := by
  have hsearch := searchTree_depthFirst src instant ⟨.empty, samples⟩ [root] none #[] []
  rw [List.map_singleton, List.append_nil] at hsearch
  rw [tree, hsearch]
  cases hfound : depthFirst src instant ⟨.empty, samples⟩ [root] with
  | error e => rfl
  | ok found =>
    obtain ⟨trees, m, hm⟩ := found
    simp [searchTree, length_layout]

end Overseer.Monitor
