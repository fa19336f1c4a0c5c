import Overseer.Proofs.Monitor.Agreement

/-! What a search reports of each process, and which samples it leaves. Both depend, for one
process, on what is read of it and on the sample of it from before the search (`Sampled`): a
process is read once, so no other sample of the same search comes into it. -/

namespace Overseer.Monitor

open ProcessTree (preorderAll)

/-! ## One process -/

/-- The sample that is taken when a process is read. -/
def taken (o : Observation) (instant : Nat) : Option CpuSample :=
  if o.info.isValid then o.cpuMillis.map (⟨·, instant⟩) else none

/-- The rate that a sample gives after the one kept before. -/
def rateSince (kept : Option CpuSample) (s : CpuSample) : Float :=
  match kept with
  | some previous => CpuSamples.rate previous s
  | none => 0

/-- What is reported of a process, by the sample kept of it before. -/
def reported (o : Observation) (instant : Nat) (kept : Option CpuSample) : Snapshot :=
  match taken o instant with
  | some s => { o.info with cpuPercent := rateSince kept s }
  | none => o.info

theorem pid_reported (o : Observation) (instant : Nat) (kept : Option CpuSample) :
    (reported o instant kept).pid = o.info.pid := by
  unfold reported
  split <;> rfl

theorem isValid_reported (o : Observation) (instant : Nat) (kept : Option CpuSample) :
    (reported o instant kept).isValid = o.info.isValid := by
  unfold reported
  split <;> rfl

/-- The sample that a search takes of a process when it reads it. -/
def sampleOf (src : Source) (instant : Pid → Nat) (pid : Pid) : Option CpuSample :=
  match src.read pid with
  | .ok o => taken o (instant pid)
  | .error _ => none

theorem snapshot_spec (src : Source) (instant : Pid → Nat) (samples : CpuSamples) (pid : Pid)
    (o : Observation) (h : src.read pid = .ok o) :
    ∃ samples' : CpuSamples,
      snapshot src instant samples pid =
        .ok (reported o (instant pid) samples[pid]?, samples') ∧
      ∀ p, samples'[p]? =
        if p = pid then (taken o (instant pid)).or samples[pid]? else samples[p]? := by
  have hnone (p : Pid) : samples[p]? = if p = pid then samples[pid]? else samples[p]? := by
    split
    · next hp => rw [hp]
    · rfl
  unfold snapshot reported taken
  rw [h]
  dsimp only
  cases o.info.isValid with
  | false => exact ⟨samples, rfl, hnone⟩
  | true =>
    cases o.cpuMillis with
    | none => exact ⟨samples, rfl, hnone⟩
    | some cpuMillis =>
      refine ⟨samples.insert pid ⟨cpuMillis, instant pid⟩, rfl, fun p => ?_⟩
      by_cases hp : p = pid
      · rw [if_pos hp, hp]
        exact Std.TreeMap.getElem?_insert_self
      · rw [if_neg hp, Std.TreeMap.getElem?_insert, if_neg]
        rw [Std.LawfulEqCmp.compare_eq_iff_eq]
        exact Ne.symm hp

theorem snapshot_invalid (src : Source) (instant : Pid → Nat) (samples : CpuSamples) (pid : Pid)
    (o : Observation) (h : src.read pid = .ok o) (hinvalid : ¬ o.info.isValid) :
    snapshot src instant samples pid = .ok (o.info, samples) := by
  rw [Bool.not_eq_true] at hinvalid
  unfold snapshot
  rw [h]
  dsimp only
  rw [hinvalid]

theorem snapshot_sampled {src : Source} {instant : Pid → Nat} {samples samples' : CpuSamples}
    {pid : Pid} {info : Snapshot} (h : snapshot src instant samples pid = .ok (info, samples')) :
    (∃ o, src.read pid = .ok o ∧ info = reported o (instant pid) samples[pid]?) ∧
      ∀ p, samples'[p]? =
        if p = pid then (sampleOf src instant pid).or samples[pid]? else samples[p]? := by
  obtain ⟨o, ho, -⟩ := snapshot_read src instant samples samples' pid info h
  obtain ⟨samples'', hspec, hsamples⟩ := snapshot_spec src instant samples pid o ho
  rw [h] at hspec
  cases hspec
  rw [sampleOf, ho]
  exact ⟨⟨o, rfl, rfl⟩, hsamples⟩

/-! ## One stretch of the search -/

/-- What a stretch of the search reports and keeps, by the samples before it. -/
structure Sampled (src : Source) (instant : Pid → Nat) (before : CpuSamples)
    (trees : List ProcessTree) (after : CpuSamples) : Prop where
  told : ∀ n ∈ preorderAll trees, ∃ o, src.read n.info.pid = .ok o ∧
    n.info = reported o (instant n.info.pid) before[n.info.pid]?
  kept : ∀ p, after[p]? =
    if p ∈ ids trees then (sampleOf src instant p).or before[p]? else before[p]?

theorem mem_ids {trees : List ProcessTree} {n : ProcessTree} (h : n ∈ preorderAll trees) :
    n.info.pid ∈ ids trees := List.mem_map_of_mem h

namespace Sampled

variable {src : Source} {instant : Pid → Nat} {before between after : CpuSamples}

theorem nil (src : Source) (instant : Pid → Nat) (before : CpuSamples) :
    Sampled src instant before [] before where
  told := by simp [preorderAll]
  kept := by simp [ids, preorderAll]

/-- What is read below and beside a process are other processes, whose samples have not changed
since before it. -/
theorem node {met met₁ met₂ : PidSet} {pid : Pid} {pids : List Pid} {info : Snapshot}
    {below beside : List ProcessTree} {samples : CpuSamples} (hpid : info.pid = pid)
    (hread : snapshot src instant before pid = .ok (info, samples))
    (hbelow : Searched src (met.insert pid) (expand src pid) below met₁)
    (hbeside : Searched src met₁ pids beside met₂)
    (below_sampled : Sampled src instant samples below between)
    (beside_sampled : Sampled src instant between beside after) :
    Sampled src instant before (.node info below :: beside) after := by
  subst hpid
  obtain ⟨hinfo, hsamples⟩ := snapshot_sampled hread
  have hself : info.pid ∈ met₁ := (hbelow.met _).mpr (.inl Std.TreeSet.mem_insert_self)
  have below_new {p : Pid} (hp : p ∈ ids below) : p ≠ info.pid := by
    rintro rfl
    exact hbelow.fresh _ hp Std.TreeSet.mem_insert_self
  have beside_new {p : Pid} (hp : p ∈ ids beside) : p ≠ info.pid ∧ p ∉ ids below := by
    constructor
    · rintro rfl
      exact hbeside.fresh _ hp hself
    · exact fun hbelow' => hbeside.fresh _ hp ((hbelow.met p).mpr (.inr hbelow'))
  have hbetween {p : Pid} (hp : p ∈ ids beside) : between[p]? = before[p]? := by
    rw [below_sampled.kept, if_neg (beside_new hp).2, hsamples, if_neg (beside_new hp).1]
  refine ⟨fun n hn => ?_, fun p => ?_⟩
  · rcases mem_preorderAll_node.mp hn with rfl | hn | hn
    · exact hinfo
    · obtain ⟨o, ho, htold⟩ := below_sampled.told n hn
      rw [hsamples, if_neg (below_new (mem_ids hn))] at htold
      exact ⟨o, ho, htold⟩
    · obtain ⟨o, ho, htold⟩ := beside_sampled.told n hn
      rw [hbetween (mem_ids hn)] at htold
      exact ⟨o, ho, htold⟩
  · by_cases hbeside' : p ∈ ids beside
    · rw [beside_sampled.kept, if_pos hbeside', hbetween hbeside',
        if_pos (mem_ids_node.mpr (.inr (.inr hbeside')))]
    · rw [beside_sampled.kept, if_neg hbeside', below_sampled.kept]
      by_cases hbelow' : p ∈ ids below
      · rw [if_pos hbelow', hsamples, if_neg (below_new hbelow'),
          if_pos (mem_ids_node.mpr (.inr (.inl hbelow')))]
      · rw [if_neg hbelow', hsamples]
        by_cases hp : p = info.pid
        · rw [if_pos hp, if_pos (mem_ids_node.mpr (.inl hp)), hp]
        · rw [if_neg hp, if_neg]
          rw [mem_ids_node]
          tauto

end Sampled

theorem depthFirst_sampled (src : Source) (instant : Pid → Nat)
    (hkeyed : ∀ pid o, src.read pid = .ok o → o.info.pid = pid)
    (m : Met) (pids : List Pid) (trees : List ProcessTree) (m' : m.After)
    (h : depthFirst src instant m pids = .ok (trees, m')) :
    Sampled src instant m.samples trees m'.1.samples := by
  fun_induction depthFirst src instant m pids generalizing trees with
  | case1 m => cases h; exact .nil src instant m.samples
  | case2 m pid rest hmet ih => exact ih trees m' h
  | case3 | case4 | case5 => cases h
  | case6 m pid rest hnew info samples hread first trees m₁ h₁ hbelow others m₂ h₂ hbeside below
      beside =>
    cases h
    obtain ⟨o, hsource, hpid, -⟩ := snapshot_read src instant _ _ _ _ hread
    have hexpand := snapshot_expand src instant _ _ _ _ hread
    simp only [dite_eq_ite, ← hexpand] at hbelow below
    exact .node (hpid.trans (hkeyed pid o hsource)) hread
      (depthFirst_searched src instant hkeyed _ _ _ _ hbelow)
      (depthFirst_searched src instant hkeyed _ _ _ _ hbeside)
      (below trees ⟨m₁, h₁⟩ hbelow) (beside others ⟨m₂, h₂⟩ hbeside)

/-! ## A poll that drops samples -/

theorem evict_samples (samples : CpuSamples) (visited : PidSet) (p : Pid) :
    (evict samples visited).1[p]? = if p ∈ visited then samples[p]? else none := by
  show (samples.filter fun pid _ => visited.contains pid)[p]? = _
  rw [Std.TreeMap.getElem?_filter']
  cases samples[p]? with
  | none => simp
  | some s => by_cases hp : p ∈ visited <;> simp [hp]

/-- The valid processes that a root leads to are reported once each, and samples are left only
of what it leads to. -/
structure Polled (src : Source) (instant : Pid → Nat) (before : CpuSamples) (root : Pid)
    (infos : List Snapshot) (after : CpuSamples) : Prop where
  nodup : (infos.map (·.pid)).Nodup
  reached : ∀ i ∈ infos, Reaches src root i.pid
  told : ∀ p o, Reaches src root p → src.read p = .ok o → o.info.isValid →
    reported o (instant p) before[p]? ∈ infos
  kept : ∀ p, Reaches src root p → after[p]? = (sampleOf src instant p).or before[p]?
  dropped : ∀ p, ¬ Reaches src root p → after[p]? = none

section Poll

variable {src : Source} {instant : Pid → Nat} {samples : CpuSamples} {root : Pid}
  {result : ProcessTree} {m : Met.After ⟨.empty, samples⟩}

theorem mem_visited_iff (hkeyed : ∀ pid o, src.read pid = .ok o → o.info.pid = pid)
    (h : depthFirst src instant ⟨.empty, samples⟩ [root] = .ok ([result], m)) (p : Pid) :
    p ∈ m.1.visited ↔ Reaches src root p := by
  have hs := depthFirst_searched src instant hkeyed _ _ _ _ h
  rw [hs.met, ← hs.mem_ids_iff]
  simp

theorem polled_of_depthFirst (hkeyed : ∀ pid o, src.read pid = .ok o → o.info.pid = pid)
    (h : depthFirst src instant ⟨.empty, samples⟩ [root] = .ok ([result], m)) :
    Polled src instant samples root result.infos (evict m.1.samples m.1.visited).1 := by
  have hs := depthFirst_searched src instant hkeyed _ _ _ _ h
  have hsampled := depthFirst_sampled src instant hkeyed _ _ _ _ h
  have hids (p : Pid) : p ∈ ids [result] ↔ Reaches src root p := hs.mem_ids_iff p
  have hvisited (p : Pid) : p ∈ m.1.visited ↔ Reaches src root p := mem_visited_iff hkeyed h p
  refine ⟨?_, fun i hi => ?_, fun p o hp ho _ => ?_, fun p hp => ?_, fun p hp => ?_⟩
  · rw [infos_eq, List.map_map]
    exact hs.nodup
  · rw [infos_eq] at hi
    obtain ⟨n, hn, rfl⟩ := List.mem_map.mp hi
    exact (hids _).mp (mem_ids hn)
  · obtain ⟨n, hn, rfl⟩ := List.mem_map.mp ((hids p).mpr hp)
    obtain ⟨o', ho', htold⟩ := hsampled.told n hn
    rw [ho] at ho'
    cases ho'
    rw [infos_eq, ← htold]
    exact List.mem_map_of_mem hn
  · rw [evict_samples, if_pos ((hvisited p).mpr hp), hsampled.kept, if_pos ((hids p).mpr hp)]
  · rw [evict_samples, if_neg (mt (hvisited p).mp hp)]

/-- A poll of the family leaves out what is not valid. -/
theorem Polled.filter_isValid {infos : List Snapshot} {after : CpuSamples}
    (h : Polled src instant samples root infos after) :
    Polled src instant samples root (infos.filter (·.isValid)) after where
  nodup := h.nodup.sublist (List.filter_sublist.map _)
  reached i hi := h.reached i (List.mem_of_mem_filter hi)
  told p o hp ho hvalid := by
    rw [List.mem_filter, isValid_reported]
    exact ⟨h.told p o hp ho hvalid, hvalid⟩
  kept := h.kept
  dropped := h.dropped

end Poll

theorem tree_polled (t : Table) (instant : Pid → Nat) (samples : CpuSamples) (root : Pid) :
    ∃ poll, tree t.source instant samples root = .ok poll ∧
      Polled t.source instant samples root poll.result.infos poll.samples := by
  obtain ⟨result, m, hrun⟩ := exists_depthFirst t.source (exists_read t) instant samples root
  exact ⟨_, tree_of_depthFirst hrun, polled_of_depthFirst (keyed_source t) hrun⟩

theorem family_polled (src : Source) (hread : ∀ p, ∃ o, src.read p = .ok o)
    (hkeyed : ∀ pid o, src.read pid = .ok o → o.info.pid = pid) (instant : Pid → Nat)
    (samples : CpuSamples) {root : Pid} {o : Observation} (ho : src.read root = .ok o)
    (hroot : o.info.isValid) :
    ∃ poll, family src instant samples root true = .ok poll ∧
      Polled src instant samples root poll.result poll.samples := by
  obtain ⟨result, m, hrun⟩ := exists_depthFirst src hread instant samples root
  refine ⟨_, family_of_depthFirst hrun ((isValid_root ho hrun).trans hroot), ?_⟩
  have hpolled := (polled_of_depthFirst hkeyed hrun).filter_isValid
  rw [infos_eq] at hpolled
  exact hpolled

/-- A family whose root is not valid is empty, and nothing changes. -/
theorem family_gone (src : Source) (instant : Pid → Nat) (samples : CpuSamples) (root : Pid)
    (descendants : Bool) {o : Observation} (ho : src.read root = .ok o)
    (hroot : ¬ o.info.isValid) :
    family src instant samples root descendants = .ok ⟨[], samples, []⟩ := by
  rw [family, snapshot_invalid src instant samples root o ho hroot]
  dsimp only
  rw [if_neg hroot]

/-- The same processes, none with children. -/
def childless (src : Source) : Source := { src with children := fun _ => [] }

/-- A family without descendants is a family with none. -/
theorem family_childless (src : Source) (instant : Pid → Nat) (samples : CpuSamples) (root : Pid) :
    family src instant samples root false = family (childless src) instant samples root true := by
  unfold family
  rw [show snapshot (childless src) instant samples root = snapshot src instant samples root
    from rfl]
  simp [searchFamily, childless]

theorem reaches_childless (src : Source) (root p : Pid) :
    Reaches (childless src) root p ↔ p = root := by
  constructor
  · apply eq_of_reaches
    unfold expand childless
    cases src.read root with
    | ok o => exact ite_self []
    | error e => rfl
  · rintro rfl
    exact .root

end Overseer.Monitor
