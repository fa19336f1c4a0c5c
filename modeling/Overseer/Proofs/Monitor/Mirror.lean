import Overseer.Proofs.Monitor.History

/-! One monitor over two sources that mirror each other. `answers_mirrored`: whatever is asked, and
however often, it gives the same outline of each process and keeps the same samples. Only the word
of a process that it is its own child may differ between the sources, for the search has met it by
then. -/

namespace Overseer

/-- What is told of a process: its id, parent and name, which say whether it is valid, and the
rate. -/
def Snapshot.outline (s : Snapshot) : Snapshot :=
  { pid := s.pid, parent := s.parent, name := s.name, cpuPercent := s.cpuPercent }

theorem Snapshot.isValid_outline (s : Snapshot) : s.outline.isValid = s.isValid := rfl

theorem Snapshot.isValid_alike {s s' : Snapshot} (h : s.outline = s'.outline) :
    s.isValid = s'.isValid := by
  rw [← s.isValid_outline, h, s'.isValid_outline]

namespace ProcessTree

mutual
/-- A tree of the same shape. -/
def outline : ProcessTree → ProcessTree
  | .node s cs => .node s.outline (outlineAll cs)
def outlineAll : List ProcessTree → List ProcessTree
  | [] => []
  | t :: r => outline t :: outlineAll r
end

end ProcessTree

namespace Monitor

open ProcessTree (outlineAll)

theorem validInfos_outlineAll (trees : List ProcessTree) :
    validInfos (outlineAll trees) = (validInfos trees).map Snapshot.outline := by
  match trees with
  | [] => rfl
  | .node info below :: beside =>
    rw [outlineAll, ProcessTree.outline, validInfos_node, validInfos_node, Snapshot.isValid_outline,
      validInfos_outlineAll below, validInfos_outlineAll beside]
    cases info.isValid <;> simp

/-! ## Processes that name themselves -/

theorem visited_of_depthFirst {src : Source} {instant : Pid → Nat} {m : Met} {pids : List Pid}
    {trees : List ProcessTree} {m' : m.After}
    (h : depthFirst src instant m pids = .ok (trees, m')) :
    ∀ p ∈ m.visited, p ∈ m'.1.visited := by
  fun_induction depthFirst src instant m pids generalizing trees with
  | case1 => cases h; exact fun p hp => hp
  | case2 m pid rest hmet ih => exact ih h
  | case3 | case4 | case5 => cases h
  | case6 m pid rest hnew info samples hread first below m₁ h₁ hbelow beside m₂ h₂ hbeside ihbelow
      ihbeside =>
    cases h
    exact fun p hp => ihbeside hbeside p (ihbelow hbelow p (Std.TreeSet.mem_insert.mpr (.inr hp)))

/-- Ids that have been met may be left out. -/
theorem depthFirst_filter (src : Source) (instant : Pid → Nat) (keep : Pid → Bool) (m : Met)
    (pids : List Pid) (h : ∀ p, keep p = false → p ∈ m.visited) :
    depthFirst src instant m (pids.filter keep) = depthFirst src instant m pids := by
  induction pids generalizing m with
  | nil => rfl
  | cons pid rest ih =>
    by_cases hmet : pid ∈ m.visited
    · rw [List.filter_cons]
      split
      · rw [depthFirst, depthFirst, dif_pos hmet, dif_pos hmet, ih m h]
      · rw [depthFirst, dif_pos hmet, ih m h]
    · rw [List.filter_cons_of_pos (by simpa using mt (h pid) hmet), depthFirst, depthFirst,
        dif_neg hmet, dif_neg hmet]
      dsimp only
      split
      · rfl
      · next info samples hread =>
        split
        · rfl
        · next below m₁ h₁ hbelow =>
          rw [ih m₁ fun p hp => visited_of_depthFirst hbelow p
            (Std.TreeSet.mem_insert.mpr (.inr (h p hp)))]

/-- The same processes, none its own child. -/
def apart (src : Source) : Source :=
  { src with children := fun pid => (src.children pid).filter (· ≠ pid) }

private theorem depthFirst_below (src : Source) (instant : Pid → Nat) (visited : PidSet)
    (samples : CpuSamples) (pid : Pid) (valid : Bool) :
    depthFirst (apart src) instant ⟨visited.insert pid, samples⟩
        (if valid then (apart src).children pid else []) =
      depthFirst (apart src) instant ⟨visited.insert pid, samples⟩
        (if valid then src.children pid else []) := by
  have hfilter := depthFirst_filter (apart src) instant (· ≠ pid) ⟨visited.insert pid, samples⟩
    (if valid then src.children pid else []) fun p hp => by
      obtain rfl : p = pid := by simpa using hp
      exact Std.TreeSet.mem_insert_self
  rw [← hfilter]
  cases valid <;> rfl

theorem depthFirst_apart (src : Source) (instant : Pid → Nat) (m : Met) (pids : List Pid) :
    depthFirst (apart src) instant m pids = depthFirst src instant m pids := by
  have hsnapshot (samples : CpuSamples) (pid : Pid) :
      snapshot (apart src) instant samples pid = snapshot src instant samples pid := rfl
  fun_induction depthFirst src instant m pids with
  | case1 m => rw [depthFirst]
  | case2 m pid rest hmet ih => rw [depthFirst, dif_pos hmet, ih]
  | case3 m pid rest hnew e hread => rw [depthFirst, dif_neg hnew, hsnapshot, hread]
  | case4 m pid rest hnew info samples hread first e hbelow below =>
    simp only [dite_eq_ite] at hbelow below
    rw [depthFirst, dif_neg hnew, hsnapshot, hread]
    dsimp only
    rw [depthFirst_below, below, hbelow]
  | case5 m pid rest hnew info samples hread first trees m₁ h₁ hbelow e hbeside below beside =>
    simp only [dite_eq_ite] at hbelow below
    rw [depthFirst, dif_neg hnew, hsnapshot, hread]
    dsimp only
    rw [depthFirst_below, below, hbelow]
    dsimp only
    rw [beside, hbeside]
  | case6 m pid rest hnew info samples hread first trees m₁ h₁ hbelow others m₂ h₂ hbeside below
      beside =>
    simp only [dite_eq_ite] at hbelow below
    rw [depthFirst, dif_neg hnew, hsnapshot, hread]
    dsimp only
    rw [depthFirst_below, below, hbelow]
    dsimp only
    rw [beside, hbeside]

/-! ## Sources that tell the same -/

/-- Two sources that tell the same of every process and of what is below it. -/
structure Mirrors (a b : Source) : Prop where
  read : ∀ pid, ∃ o o', a.read pid = .ok o ∧ b.read pid = .ok o' ∧
    o.info.outline = o'.info.outline ∧ o.cpuMillis = o'.cpuMillis
  children : ∀ pid, (a.children pid).filter (· ≠ pid) = (b.children pid).filter (· ≠ pid)

section Mirrored

variable {a b : Source} (h : Mirrors a b) (instant : Pid → Nat)

include h

theorem snapshot_mirrored (samples : CpuSamples) (pid : Pid) :
    ∃ info info' samples', snapshot a instant samples pid = .ok (info, samples') ∧
      snapshot b instant samples pid = .ok (info', samples') ∧ info.outline = info'.outline := by
  obtain ⟨o, o', ha, hb, hinfo, hcpu⟩ := h.read pid
  unfold snapshot
  rw [ha, hb]
  dsimp only
  rw [Snapshot.isValid_alike hinfo, hcpu]
  split
  · next _ cpuMillis _ _ =>
    refine ⟨_, _, _, rfl, rfl, ?_⟩
    exact congrArg (fun s : Snapshot => { s with
      cpuPercent := (samples.record pid ⟨cpuMillis, instant pid⟩).2 }) hinfo
  · exact ⟨_, _, _, rfl, rfl, hinfo⟩

/-- Where no process is its own child, the two searches go the same way. -/
theorem depthFirst_alike (hchildren : a.children = b.children) (m : Met) (pids : List Pid) :
    ∃ trees trees' m', depthFirst a instant m pids = .ok (trees, m') ∧
      depthFirst b instant m pids = .ok (trees', m') ∧ outlineAll trees = outlineAll trees' := by
  fun_induction depthFirst a instant m pids with
  | case1 m => exact ⟨[], [], ⟨m, Nat.le_refl _⟩, rfl, by rw [depthFirst], rfl⟩
  | case2 m pid rest hmet ih =>
    rw [depthFirst, dif_pos hmet]
    exact ih
  | case3 m pid rest hnew e hread =>
    obtain ⟨_, _, _, hok, -⟩ := snapshot_mirrored h instant m.samples pid
    rw [hread] at hok
    cases hok
  -- Neither search fails, for both can read every process.
  | case4 m pid rest hnew info samples hread first e hbelow below =>
    obtain ⟨_, _, _, hok, -⟩ := below
    rw [hbelow] at hok
    cases hok
  | case5 m pid rest hnew info samples hread first trees m₁ h₁ hbelow e hbeside below beside =>
    obtain ⟨_, _, _, hok, -⟩ := beside
    rw [hbeside] at hok
    cases hok
  | case6 m pid rest hnew info samples hread first trees m₁ h₁ hbelow others m₂ h₂ hbeside below
      beside =>
    obtain ⟨_, info', _, hok, hread', hinfo⟩ := snapshot_mirrored h instant m.samples pid
    rw [hread] at hok
    cases hok
    obtain ⟨_, trees', _, hok, hbelow', htrees⟩ := below
    rw [hbelow] at hok
    cases hok
    obtain ⟨_, others', _, hok, hbeside', hothers⟩ := beside
    rw [hbeside] at hok
    cases hok
    refine ⟨_, .node info' trees' :: others', _, rfl, ?_, ?_⟩
    · simp only [dite_eq_ite, Snapshot.isValid_alike hinfo, hchildren] at hbelow'
      rw [depthFirst, dif_neg hnew, hread']
      dsimp only
      rw [hbelow']
      dsimp only
      rw [hbeside']
    · rw [outlineAll, outlineAll, ProcessTree.outline, ProcessTree.outline, hinfo, htrees, hothers]

theorem depthFirst_mirrored (m : Met) (pids : List Pid) :
    ∃ trees trees' m', depthFirst a instant m pids = .ok (trees, m') ∧
      depthFirst b instant m pids = .ok (trees', m') ∧ outlineAll trees = outlineAll trees' := by
  have happart : Mirrors (apart a) (apart b) :=
    ⟨h.read, fun pid => congrArg (List.filter _) (h.children pid)⟩
  have hsearch := depthFirst_alike happart instant (funext h.children) m pids
  rwa [depthFirst_apart, depthFirst_apart] at hsearch

theorem childless_mirrored : Mirrors (childless a) (childless b) := ⟨h.read, fun _ => rfl⟩

end Mirrored

/-! ## Answers -/

/-- What a query gives. -/
inductive Answer
  | process (info : Snapshot)
  | tree (root : ProcessTree)
  | family (members : List Snapshot)

def Answer.outline : Answer → Answer
  | .process info => .process info.outline
  | .tree root => .tree root.outline
  | .family members => .family (members.map Snapshot.outline)

/-- The answer to a query, and the samples kept. -/
def ask (src : Source) (instant : Pid → Nat) (samples : CpuSamples) :
    Query → Except Overflow (Answer × CpuSamples)
  | .info pid => (info src instant samples pid).map fun p => (.process p.result, p.samples)
  | .tree root => (tree src instant samples root).map fun p => (.tree p.result, p.samples)
  | .family root descendants =>
    (family src instant samples root descendants).map fun p => (.family p.result, p.samples)

/-- A query, with what the clocks say when it is asked. -/
structure Call where
  now : Timestamp
  instant : Pid → Nat
  query : Query

/-- The answers to some calls in turn, with the samples kept after each. -/
def answers (src : Timestamp → Source) :
    CpuSamples → List Call → Except Overflow (List (Answer × CpuSamples))
  | _, [] => .ok []
  | samples, c :: rest => do
    let (answer, kept) ← ask (src c.now) c.instant samples c.query
    let later ← answers src kept rest
    return (answer, kept) :: later

section Asked

variable {a b : Source} (h : Mirrors a b) (instant : Pid → Nat) (samples : CpuSamples)

include h

theorem tree_mirrored (root : Pid) :
    ∃ poll poll', tree a instant samples root = .ok poll ∧
      tree b instant samples root = .ok poll' ∧
      poll.result.outline = poll'.result.outline ∧ poll.samples = poll'.samples := by
  obtain ⟨trees, trees', m, ha, hb, hout⟩ := depthFirst_mirrored h instant ⟨.empty, samples⟩ [root]
  obtain ⟨result, rfl⟩ := depthFirst_root _ _ _ _ _ _ (by simp) ha
  obtain ⟨result', rfl⟩ := depthFirst_root _ _ _ _ _ _ (by simp) hb
  refine ⟨_, _, tree_of_depthFirst ha, tree_of_depthFirst hb, ?_, rfl⟩
  simpa [outlineAll] using hout

theorem descendants_mirrored (root : Pid) :
    ∃ poll poll', family a instant samples root true = .ok poll ∧
      family b instant samples root true = .ok poll' ∧
      poll.result.map Snapshot.outline = poll'.result.map Snapshot.outline ∧
      poll.samples = poll'.samples := by
  obtain ⟨o, o', hreada, hreadb, hinfo, -⟩ := h.read root
  by_cases hroot : o.info.isValid
  · obtain ⟨trees, trees', m, ha, hb, hout⟩ :=
      depthFirst_mirrored h instant ⟨.empty, samples⟩ [root]
    obtain ⟨result, rfl⟩ := depthFirst_root _ _ _ _ _ _ (by simp) ha
    obtain ⟨result', rfl⟩ := depthFirst_root _ _ _ _ _ _ (by simp) hb
    have hroot' : o'.info.isValid := (Snapshot.isValid_alike hinfo).symm.trans hroot
    refine ⟨_, _, family_of_depthFirst ha ((isValid_root hreada ha).trans hroot),
      family_of_depthFirst hb ((isValid_root hreadb hb).trans hroot'), ?_, rfl⟩
    rw [← validInfos_outlineAll, hout, validInfos_outlineAll]
  · have hroot' : ¬ o'.info.isValid := by rwa [← Snapshot.isValid_alike hinfo]
    exact ⟨_, _, family_gone a instant samples root true hreada hroot,
      family_gone b instant samples root true hreadb hroot', rfl, rfl⟩

theorem ask_mirrored (query : Query) :
    ∃ answer answer' kept, ask a instant samples query = .ok (answer, kept) ∧
      ask b instant samples query = .ok (answer', kept) ∧ answer.outline = answer'.outline := by
  cases query with
  | info pid =>
    obtain ⟨info', info'', kept, ha, hb, hout⟩ := snapshot_mirrored h instant samples pid
    refine ⟨.process info', .process info'', kept, ?_, ?_, congrArg Answer.process hout⟩
    · rw [ask, info, ha]
      rfl
    · rw [ask, info, hb]
      rfl
  | tree root =>
    obtain ⟨poll, poll', ha, hb, hout, hkept⟩ := tree_mirrored h instant samples root
    refine ⟨.tree poll.result, .tree poll'.result, poll.samples, ?_, ?_, congrArg Answer.tree hout⟩
    · rw [ask, ha]
      rfl
    · rw [ask, hb, hkept]
      rfl
  | family root descendants =>
    obtain ⟨poll, poll', ha, hb, hout, hkept⟩ :
        ∃ poll poll', family a instant samples root descendants = .ok poll ∧
          family b instant samples root descendants = .ok poll' ∧
          poll.result.map Snapshot.outline = poll'.result.map Snapshot.outline ∧
          poll.samples = poll'.samples := by
      cases descendants with
      | true => exact descendants_mirrored h instant samples root
      | false =>
        rw [family_childless, family_childless]
        exact descendants_mirrored (childless_mirrored h) instant samples root
    refine ⟨.family poll.result, .family poll'.result, poll.samples, ?_, ?_,
      congrArg Answer.family hout⟩
    · rw [ask, ha]
      rfl
    · rw [ask, hb, hkept]
      rfl

end Asked

/-- Through any calls, sources that mirror each other at every moment are answered alike. -/
theorem answers_mirrored {a b : Timestamp → Source} (h : ∀ now, Mirrors (a now) (b now))
    (samples : CpuSamples) (calls : List Call) :
    ∃ xs ys, answers a samples calls = .ok xs ∧ answers b samples calls = .ok ys ∧
      xs.map (Prod.map Answer.outline id) = ys.map (Prod.map Answer.outline id) := by
  induction calls generalizing samples with
  | nil => exact ⟨[], [], rfl, rfl, rfl⟩
  | cons c rest ih =>
    obtain ⟨answer, answer', kept, ha, hb, hout⟩ :=
      ask_mirrored (h c.now) c.instant samples c.query
    obtain ⟨xs, ys, hxs, hys, hlater⟩ := ih kept
    refine ⟨(answer, kept) :: xs, (answer', kept) :: ys, ?_, ?_, ?_⟩
    · simp only [answers, ha, hxs, bind, Except.bind, pure, Except.pure]
    · simp only [answers, hb, hys, bind, Except.bind, pure, Except.pure]
    · rw [List.map_cons, List.map_cons, hlater, Prod.map_apply, Prod.map_apply, hout]

end Monitor

end Overseer
