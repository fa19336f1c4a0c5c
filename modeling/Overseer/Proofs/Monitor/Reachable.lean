import Mathlib.Data.Set.Card
import Overseer.Proofs.Monitor.Layout
import Overseer.Source.Table

/-! A poll of descendants meets what the root leads to through children of processes that can
be read, and meets it once. The invariant relates the ids met before and after one stretch of
the search to the trees that it gives. -/

namespace Overseer.Monitor

open ProcessTree (preorderAll)

/-! ## One process -/

/-- What the search goes on to from a process. -/
def expand (src : Source) (pid : Pid) : List Pid :=
  match src.read pid with
  | .ok o => if o.info.isValid then src.children pid else []
  | .error _ => []

theorem snapshot_read (src : Source) (instant : Pid → Nat) (samples samples' : CpuSamples)
    (pid : Pid) (info : Snapshot)
    (h : snapshot src instant samples pid = .ok (info, samples')) :
    ∃ o, src.read pid = .ok o ∧ info.pid = o.info.pid ∧ info.isValid = o.info.isValid := by
  unfold snapshot at h
  cases hread : src.read pid with
  | error e => rw [hread] at h; cases h
  | ok o =>
    refine ⟨o, rfl, ?_⟩
    rw [hread] at h
    dsimp only at h
    split at h <;> cases h <;> exact ⟨rfl, rfl⟩

theorem snapshot_expand (src : Source) (instant : Pid → Nat) (samples samples' : CpuSamples)
    (pid : Pid) (info : Snapshot)
    (h : snapshot src instant samples pid = .ok (info, samples')) :
    expand src pid = if info.isValid then src.children pid else [] := by
  obtain ⟨o, hread, -, hvalid⟩ := snapshot_read src instant samples samples' pid info h
  rw [expand, hread, hvalid]

theorem snapshot_total (src : Source) (instant : Pid → Nat) (samples : CpuSamples) (pid : Pid)
    (h : ∀ p, ∃ o, src.read p = .ok o) : ∃ r, snapshot src instant samples pid = .ok r := by
  obtain ⟨o, ho⟩ := h pid
  unfold snapshot
  rw [ho]
  dsimp only
  split <;> exact ⟨_, rfl⟩

/-! ## One stretch of the search -/

/-- The ids in some trees, in order. -/
def ids (trees : List ProcessTree) : List Pid := (preorderAll trees).map (·.info.pid)

/-- Trees searched for some ids, between two sets of ids met. -/
structure Searched (src : Source) (before : PidSet) (pids : List Pid)
    (trees : List ProcessTree) (after : PidSet) : Prop where
  nodup : (ids trees).Nodup
  fresh : ∀ p ∈ ids trees, p ∉ before
  met : ∀ p, p ∈ after ↔ p ∈ before ∨ p ∈ ids trees
  asked : ∀ p ∈ pids, p ∈ after
  closed : ∀ p ∈ ids trees, ∀ c ∈ expand src p, c ∈ after
  least : ∀ V : Set Pid, (∀ p ∈ pids, p ∈ V) → (∀ p ∈ V, ∀ c ∈ expand src p, c ∈ V) →
    ∀ p ∈ ids trees, p ∈ V
  roots : ∀ t ∈ trees, t.info.pid ∈ pids
  listed : ∀ n ∈ preorderAll trees, ∀ c ∈ n.children, c.info.pid ∈ expand src n.info.pid
  leaf : ∀ n ∈ preorderAll trees, n.info.isValid = false → n.children = []

section Node

variable {info : Snapshot} {below beside : List ProcessTree}

theorem preorderAll_node : preorderAll (.node info below :: beside) =
    .node info below :: (preorderAll below ++ preorderAll beside) := by
  simp [preorderAll, ProcessTree.preorder]

theorem mem_preorderAll_node {n : ProcessTree} : n ∈ preorderAll (.node info below :: beside) ↔
    n = .node info below ∨ n ∈ preorderAll below ∨ n ∈ preorderAll beside := by
  rw [preorderAll_node, List.mem_cons, List.mem_append]

theorem ids_node : ids (.node info below :: beside) = info.pid :: (ids below ++ ids beside) := by
  simp [ids, preorderAll_node, ProcessTree.info]

theorem mem_ids_node {p : Pid} : p ∈ ids (.node info below :: beside) ↔
    p = info.pid ∨ p ∈ ids below ∨ p ∈ ids beside := by
  rw [ids_node, List.mem_cons, List.mem_append]

end Node

namespace Searched

variable {src : Source} {before between after : PidSet} {pid : Pid} {pids : List Pid}

theorem nil (src : Source) (before : PidSet) : Searched src before [] [] before where
  nodup := by simp [ids, preorderAll]
  fresh := by simp [ids, preorderAll]
  met := by simp [ids, preorderAll]
  asked := by simp
  closed := by simp [ids, preorderAll]
  least := by simp [ids, preorderAll]
  roots := by simp
  listed := by simp [preorderAll]
  leaf := by simp [preorderAll]

theorem skip {trees : List ProcessTree} (h : pid ∈ before)
    (hrest : Searched src before pids trees after) :
    Searched src before (pid :: pids) trees after where
  nodup := hrest.nodup
  fresh := hrest.fresh
  met := hrest.met
  asked := by
    intro p hp
    rcases List.mem_cons.mp hp with rfl | hp
    · exact (hrest.met p).mpr (.inl h)
    · exact hrest.asked p hp
  closed := hrest.closed
  least := fun V hV => hrest.least V fun p hp => hV p (List.mem_cons_of_mem _ hp)
  roots := fun t ht => List.mem_cons_of_mem _ (hrest.roots t ht)
  listed := hrest.listed
  leaf := hrest.leaf

/-- A process that is new, what is searched below it, and then what is searched beside it. -/
theorem node {info : Snapshot} {below beside : List ProcessTree} (h : pid ∉ before)
    (hpid : info.pid = pid) (hinvalid : info.isValid = false → expand src pid = [])
    (hbelow : Searched src (before.insert pid) (expand src pid) below between)
    (hbeside : Searched src between pids beside after) :
    Searched src before (pid :: pids) (.node info below :: beside) after := by
  subst hpid
  have hbetween (p : Pid) : p ∈ between ↔ (p = info.pid ∨ p ∈ before) ∨ p ∈ ids below := by
    rw [hbelow.met, Std.TreeSet.mem_insert, Std.LawfulEqCmp.compare_eq_iff_eq, eq_comm]
  have hself : info.pid ∈ between := (hbetween _).mpr (.inl (.inl rfl))
  have hlater (p : Pid) (hp : p ∈ between) : p ∈ after := (hbeside.met p).mpr (.inl hp)
  refine ⟨?nodup, ?fresh, ?met, ?asked, ?closed, ?least, ?roots, ?listed, ?leaf⟩
  case nodup =>
    rw [ids_node, List.nodup_cons, List.nodup_append, List.mem_append, not_or]
    refine ⟨⟨fun hp => ?_, fun hp => hbeside.fresh _ hp hself⟩, hbelow.nodup, hbeside.nodup, ?_⟩
    · exact hbelow.fresh _ hp Std.TreeSet.mem_insert_self
    · rintro p hp q hq rfl
      exact hbeside.fresh p hq ((hbetween p).mpr (.inr hp))
  case fresh =>
    intro p hp hbefore
    rcases mem_ids_node.mp hp with rfl | hp | hp
    · exact h hbefore
    · exact hbelow.fresh p hp (Std.TreeSet.mem_insert.mpr (.inr hbefore))
    · exact hbeside.fresh p hp ((hbetween p).mpr (.inl (.inr hbefore)))
  case met =>
    intro p
    rw [mem_ids_node, hbeside.met, hbetween]
    tauto
  case asked =>
    intro p hp
    rcases List.mem_cons.mp hp with rfl | hp
    · exact hlater _ hself
    · exact hbeside.asked p hp
  case closed =>
    intro p hp c hc
    rcases mem_ids_node.mp hp with rfl | hp | hp
    · exact hlater c (hbelow.asked c hc)
    · exact hlater c (hbelow.closed p hp c hc)
    · exact hbeside.closed p hp c hc
  case least =>
    intro V hV hclosed p hp
    have hown : info.pid ∈ V := hV _ List.mem_cons_self
    rcases mem_ids_node.mp hp with rfl | hp | hp
    · exact hown
    · exact hbelow.least V (hclosed _ hown) hclosed p hp
    · exact hbeside.least V (fun q hq => hV q (List.mem_cons_of_mem _ hq)) hclosed p hp
  case roots =>
    intro t ht
    rcases List.mem_cons.mp ht with rfl | ht
    · exact List.mem_cons_self
    · exact List.mem_cons_of_mem _ (hbeside.roots t ht)
  case listed =>
    intro n hn c hc
    rcases mem_preorderAll_node.mp hn with rfl | hn | hn
    · exact hbelow.roots c hc
    · exact hbelow.listed n hn c hc
    · exact hbeside.listed n hn c hc
  case leaf =>
    intro n hn hvalid
    rcases mem_preorderAll_node.mp hn with rfl | hn | hn
    · refine List.eq_nil_iff_forall_not_mem.mpr fun c hc => ?_
      have hroot := hbelow.roots c hc
      rw [hinvalid hvalid] at hroot
      exact List.not_mem_nil hroot
    · exact hbelow.leaf n hn hvalid
    · exact hbeside.leaf n hn hvalid

end Searched

/-! ## Runs -/

theorem depthFirst_searched (src : Source) (instant : Pid → Nat)
    (hkeyed : ∀ pid o, src.read pid = .ok o → o.info.pid = pid)
    (m : Met) (pids : List Pid) (trees : List ProcessTree) (m' : m.After)
    (h : depthFirst src instant m pids = .ok (trees, m')) :
    Searched src m.visited pids trees m'.1.visited := by
  fun_induction depthFirst src instant m pids generalizing trees with
  | case1 m => cases h; exact .nil src m.visited
  | case2 m pid rest hmet ih => exact .skip hmet (ih trees m' h)
  | case3 | case4 | case5 => cases h
  | case6 m pid rest hnew info samples hread first trees m₁ h₁ hbelow others m₂ h₂ hbeside below
      beside =>
    cases h
    obtain ⟨o, hsource, hpid, -⟩ := snapshot_read src instant _ _ _ _ hread
    have hexpand := snapshot_expand src instant _ _ _ _ hread
    simp only [dite_eq_ite, ← hexpand] at hbelow below
    refine .node hnew (hpid.trans (hkeyed pid o hsource)) ?_ (below trees ⟨m₁, h₁⟩ hbelow)
      (beside others ⟨m₂, h₂⟩ hbeside)
    intro hinvalid
    rw [hexpand, hinvalid]
    rfl

theorem depthFirst_total (src : Source) (instant : Pid → Nat)
    (hread : ∀ p, ∃ o, src.read p = .ok o) (m : Met) (pids : List Pid) :
    ∃ r, depthFirst src instant m pids = .ok r := by
  fun_induction depthFirst src instant m pids with
  | case1 m => exact ⟨_, rfl⟩
  | case2 m pid rest hmet ih => exact ih
  | case3 m pid rest hnew e he =>
    obtain ⟨r, hr⟩ := snapshot_total src instant m.samples pid hread
    rw [hr] at he
    cases he
  | case4 m pid rest hnew info samples _ first e hbelow below =>
    obtain ⟨r, hr⟩ := below
    rw [hr] at hbelow
    cases hbelow
  | case5 m pid rest hnew info samples _ first trees m₁ h₁ hbelow e hbeside below beside =>
    obtain ⟨r, hr⟩ := beside
    rw [hr] at hbeside
    cases hbeside
  | case6 => exact ⟨_, rfl⟩

/-! ## What a root leads to -/

/-- A root leads to itself, and to what the search goes on to from a process that it leads to. -/
inductive Reaches (src : Source) (root : Pid) : Pid → Prop
  | root : Reaches src root root
  | child {p c : Pid} (h : Reaches src root p) (hc : c ∈ expand src p) : Reaches src root c

theorem Searched.mem_ids_iff {src : Source} {root : Pid} {trees : List ProcessTree}
    {after : PidSet} (h : Searched src .empty [root] trees after) (p : Pid) :
    p ∈ ids trees ↔ Reaches src root p := by
  have hmet (q : Pid) : q ∈ after ↔ q ∈ ids trees := by
    rw [h.met]
    simp
  constructor
  · refine h.least {q | Reaches src root q} ?_ (fun q hq c hc => .child hq hc) p
    intro q hq
    obtain rfl : q = root := List.mem_singleton.mp hq
    exact .root
  · intro hp
    induction hp with
    | root => exact (hmet root).mp (h.asked root List.mem_cons_self)
    | child _ hc ih => exact (hmet _).mp (h.closed _ ih _ hc)

theorem eq_of_reaches {src : Source} {root p : Pid} (hroot : expand src root = [])
    (h : Reaches src root p) : p = root := by
  induction h with
  | root => rfl
  | child _ hc ih =>
    rw [ih, hroot] at hc
    exact absurd hc List.not_mem_nil

/-! ## Tables -/

theorem keyed_empty (pid : Pid) (o : Observation)
    (h : (∅ : Std.TreeMap Pid Observation compare)[pid]? = some o) : o.info.pid = pid := by
  rw [Std.TreeMap.getElem?_emptyc] at h
  cases h

/-- The table of no processes. -/
def noProcesses : Table := { keyed := keyed_empty }

theorem keyed_source (t : Table) (pid : Pid) (o : Observation) (h : t.source.read pid = .ok o) :
    o.info.pid = pid := by
  obtain rfl : t.read pid = o := Except.ok.inj h
  unfold Table.read
  cases hfound : t.processes[pid]? with
  | none => rfl
  | some o => exact t.keyed pid o hfound

/-- The root is in the set, and so are the children of each process in it that can be read. -/
def Closed (t : Table) (root : Pid) (V : Set Pid) : Prop :=
  root ∈ V ∧ ∀ p ∈ V, (t.read p).info.isValid → ∀ c ∈ t.children p, c ∈ V

theorem expand_source (t : Table) (p c : Pid) :
    c ∈ expand t.source p ↔ (t.read p).info.isValid ∧ c ∈ t.children p := by
  simp only [expand, Table.source]
  split <;> simp_all

/-- A poll ends, whatever cycles the links make. Its ids are all different and make up the
least closed set. -/
theorem tree_exact (t : Table) (instant : Pid → Nat) (samples : CpuSamples) (root : Pid) :
    ∃ (poll : Poll ProcessTree) (V : Set Pid), tree t.source instant samples root = .ok poll ∧
      IsLeast {V | Closed t root V} V ∧
      (poll.result.nodes.map (·.info.pid)).Nodup ∧
      (∀ p, p ∈ V ↔ p ∈ poll.result.nodes.map (·.info.pid)) ∧
      poll.result.info.pid = root ∧
      (∀ n ∈ poll.result.nodes, n.info.isValid = false → n.children = []) ∧
      (∀ n ∈ poll.result.nodes, ∀ c ∈ n.children, c.info.pid ∈ t.children n.info.pid) ∧
      V.Finite ∧ poll.result.length = V.ncard := by
  obtain ⟨⟨trees, m, hm⟩, hrun⟩ := depthFirst_total t.source instant (fun p => ⟨t.read p, rfl⟩)
    ⟨.empty, samples⟩ [root]
  obtain ⟨result, rfl⟩ := depthFirst_root _ _ _ _ _ _ (by simp) hrun
  have hs := depthFirst_searched t.source instant (keyed_source t) _ _ _ _ hrun
  have htree := tree_depthFirst t.source instant samples root
  rw [hrun] at htree
  dsimp only at htree
  rw [assemble_layout] at htree
  have hnodes : preorderAll [result] = result.nodes :=
    (ProcessTree.walk_eq_preorderAll [result]).symm
  have hids : ids [result] = result.nodes.map (·.info.pid) := by rw [ids, hnodes]
  have hmet (p : Pid) (hp : p ∈ m.visited) : p ∈ ids [result] := by
    simpa using (hs.met p).mp hp
  refine ⟨_, {p | p ∈ ids [result]}, htree, ⟨⟨?_, ?_⟩, ?_⟩, hids ▸ hs.nodup, ?_, ?_, ?_, ?_, ?_, ?_⟩
  · exact hmet root (hs.asked root List.mem_cons_self)
  · intro p hp hvalid c hc
    exact hmet c (hs.closed p hp c ((expand_source t p c).mpr ⟨hvalid, hc⟩))
  · rintro V ⟨hroot, hclosed⟩ p hp
    refine hs.least V (by simpa using hroot) (fun q hq c hc => ?_) p hp
    obtain ⟨hvalid, hc⟩ := (expand_source t q c).mp hc
    exact hclosed q hq hvalid c hc
  · intro p
    rw [Set.mem_ofPred_eq, hids]
  · simpa using hs.roots result List.mem_cons_self
  · exact hnodes ▸ hs.leaf
  · intro n hn c hc
    exact ((expand_source t _ _).mp (hs.listed n (hnodes ▸ hn) c hc)).2
  · exact (ids [result]).finite_toSet
  · rw [← List.coe_toFinset, Set.ncard_coe_finset, List.toFinset_card_of_nodup hs.nodup, hids,
      List.length_map]
    rfl

end Overseer.Monitor
