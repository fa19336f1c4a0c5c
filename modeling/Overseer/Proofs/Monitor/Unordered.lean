import Overseer.Proofs.Monitor.Invalid
import Overseer.Proofs.Process.Order

/-! Polls over two sources that tell the same of each process and have the same children of it, if
in another order. A search then meets the same processes, only in another order and under other
parents (`reaches_agree`), so the polls fail together or report the same (`tree_unordered`,
`family_unordered`). -/

namespace Overseer

/-- What is told of a process whenever it is read. The rate and the time since its start depend on
when that is. -/
def Snapshot.steady (s : Snapshot) : Snapshot := { s with cpuPercent := 0, uptime := 0 }

theorem Snapshot.isValid_steady (s : Snapshot) : s.steady.isValid = s.isValid := rfl

namespace Monitor

/-- The same is told of a process at two times. -/
structure SameProcess (o o' : Observation) : Prop where
  info : o.info.steady = o'.info.steady
  cpuMillis : o.cpuMillis = o'.cpuMillis

theorem SameProcess.isValid {o o' : Observation} (h : SameProcess o o') :
    o.info.isValid = o'.info.isValid := by
  rw [← o.info.isValid_steady, h.info, o'.info.isValid_steady]

theorem SameProcess.symm {o o' : Observation} (h : SameProcess o o') : SameProcess o' o :=
  ⟨h.info.symm, h.cpuMillis.symm⟩

/-- Two sources read the same, and list the same children in any order. -/
structure Agree (a b : Source) : Prop where
  read : ∀ pid, Together SameProcess (a.read pid) (b.read pid)
  children : ∀ pid c, c ∈ a.children pid ↔ c ∈ b.children pid

namespace Agree

variable {a b : Source} (h : Agree a b)

include h

theorem read_ok {pid : Pid} {o : Observation} (ho : a.read pid = .ok o) :
    ∃ o', b.read pid = .ok o' ∧ SameProcess o o' := by
  have hread := h.read pid
  rw [ho] at hread
  generalize b.read pid = r at hread ⊢
  cases hread with
  | done hsame => exact ⟨_, rfl, hsame⟩

theorem symm : Agree b a where
  read pid := by
    have hread := h.read pid
    generalize a.read pid = r at hread ⊢
    generalize b.read pid = r' at hread ⊢
    cases hread with
    | failed e e' => exact .failed e' e
    | done hsame => exact .done hsame.symm
  children pid c := (h.children pid c).symm

theorem read_error {pid : Pid} {e : Overflow} (he : a.read pid = .error e) :
    ∃ e', b.read pid = .error e' := by
  have hread := h.read pid
  rw [he] at hread
  generalize b.read pid = r at hread ⊢
  cases hread with
  | failed _ e' => exact ⟨e', rfl⟩

theorem mem_expand_iff (p c : Pid) : c ∈ expand a p ↔ c ∈ expand b p := by
  unfold expand
  cases hread : a.read p with
  | error e =>
    obtain ⟨e', he'⟩ := h.read_error hread
    rw [he']
  | ok o =>
    obtain ⟨o', ho', hsame⟩ := h.read_ok hread
    rw [ho']
    dsimp only
    rw [hsame.isValid]
    split
    · exact h.children p c
    · rfl

theorem childless : Agree (Monitor.childless a) (Monitor.childless b) where
  read := h.read
  children _ _ := Iff.rfl

theorem isSome_sampleOf (instant instant' : Pid → Nat) (pid : Pid) :
    (sampleOf a instant pid).isSome = (sampleOf b instant' pid).isSome := by
  unfold sampleOf
  cases hread : a.read pid with
  | error e =>
    obtain ⟨e', he'⟩ := h.read_error hread
    rw [he']
  | ok o =>
    obtain ⟨o', ho', hsame⟩ := h.read_ok hread
    rw [ho']
    dsimp only
    rw [taken, taken, hsame.isValid, hsame.cpuMillis]
    split
    · rw [Option.isSome_map, Option.isSome_map]
    · rfl

end Agree

/-! ## What a search meets -/

theorem Reaches.mono {a b : Source} {root p : Pid}
    (h : ∀ p c, c ∈ expand a p → c ∈ expand b p) (hp : Reaches a root p) : Reaches b root p := by
  induction hp with
  | root => exact .root
  | child _ hc ih => exact .child ih (h _ _ hc)

theorem reaches_agree {a b : Source} (h : Agree a b) (root p : Pid) :
    Reaches a root p ↔ Reaches b root p :=
  ⟨.mono fun p c => (h.mem_expand_iff p c).mp, .mono fun p c => (h.mem_expand_iff p c).mpr⟩

/-- A search fails only at a process that it comes to and that cannot be read. -/
theorem unread_of_depthFirst {src : Source} {instant : Pid → Nat} {m : Met} {pids : List Pid}
    {e : Overflow} (h : depthFirst src instant m pids = .error e) {V : Set Pid}
    (hpids : ∀ p ∈ pids, p ∈ V) (hclosed : ∀ p ∈ V, ∀ c ∈ expand src p, c ∈ V) :
    ∃ p ∈ V, ∃ e', src.read p = .error e' := by
  -- Both what is searched below a process and what is searched beside it stay within the set.
  fun_induction depthFirst src instant m pids with
  | case1 m => cases h
  | case2 m pid rest hmet ih => exact ih h fun p hp => hpids p (List.mem_cons_of_mem _ hp)
  | case3 m pid rest hnew e' hread =>
    refine ⟨pid, hpids pid List.mem_cons_self, ?_⟩
    cases hsource : src.read pid with
    | error e'' => exact ⟨e'', rfl⟩
    | ok o =>
      obtain ⟨samples', hok, -⟩ := snapshot_spec src instant m.samples pid o hsource
      rw [hread] at hok
      cases hok
  | case4 m pid rest hnew info samples hread first e' hbelow below =>
    cases h
    have hexpand := snapshot_expand src instant _ _ _ _ hread
    simp only [dite_eq_ite, ← hexpand] at hbelow below
    exact below hbelow (hclosed pid (hpids pid List.mem_cons_self))
  | case5 m pid rest hnew info samples hread first trees m₁ h₁ hbelow e' hbeside below beside =>
    cases h
    exact beside hbeside fun p hp => hpids p (List.mem_cons_of_mem _ hp)
  | case6 => cases h

theorem steady_reported (o : Observation) (instant : Nat) (kept : Option CpuSample) :
    (reported o instant kept).steady = o.info.steady := by
  unfold reported
  split <;> rfl

/-- A search for all that a root leads to comes to an end. -/
def Finishes (src : Source) (instant : Pid → Nat) (samples : CpuSamples) (root : Pid) : Prop :=
  ∃ (result : ProcessTree) (m : Met.After ⟨.empty, samples⟩),
    depthFirst src instant ⟨.empty, samples⟩ [root] = .ok ([result], m)

section Search

variable {src : Source} (hkeyed : ∀ pid o, src.read pid = .ok o → o.info.pid = pid)
  {instant : Pid → Nat} {samples : CpuSamples} {root : Pid}

include hkeyed

theorem read_of_depthFirst {result : ProcessTree} {m : Met.After ⟨.empty, samples⟩}
    (h : depthFirst src instant ⟨.empty, samples⟩ [root] = .ok ([result], m)) {p : Pid}
    (hp : Reaches src root p) : ∃ o, src.read p = .ok o := by
  have hs := depthFirst_searched src instant hkeyed _ _ _ _ h
  obtain ⟨n, hn, rfl⟩ := List.mem_map.mp ((hs.mem_ids_iff p).mpr hp)
  obtain ⟨o, ho, -⟩ := (depthFirst_sampled src instant hkeyed _ _ _ _ h).told n hn
  exact ⟨o, ho⟩

theorem finishes_iff : Finishes src instant samples root ↔
    ∀ p, Reaches src root p → ∃ o, src.read p = .ok o := by
  constructor
  · rintro ⟨result, m, hrun⟩ p hp
    exact read_of_depthFirst hkeyed hrun hp
  · intro hread
    cases hrun : depthFirst src instant ⟨.empty, samples⟩ [root] with
    | ok found =>
      obtain ⟨trees, m⟩ := found
      obtain ⟨result, rfl⟩ := depthFirst_root _ _ _ _ _ _ (by simp) hrun
      exact ⟨result, m, hrun⟩
    | error e =>
      obtain ⟨p, hp, e', he'⟩ := unread_of_depthFirst hrun (V := {p | Reaches src root p})
        (fun p hp => List.mem_singleton.mp hp ▸ .root) fun p hp c hc => .child hp hc
      obtain ⟨o, ho⟩ := hread p hp
      rw [he'] at ho
      cases ho

/-- What is told are the processes that the root leads to, as they are read. -/
theorem mem_steady_iff {result : ProcessTree} {m : Met.After ⟨.empty, samples⟩}
    (h : depthFirst src instant ⟨.empty, samples⟩ [root] = .ok ([result], m)) (s : Snapshot) :
    s ∈ result.infos.map Snapshot.steady ↔
      ∃ p o, Reaches src root p ∧ src.read p = .ok o ∧ o.info.steady = s := by
  have hs := depthFirst_searched src instant hkeyed _ _ _ _ h
  have hsampled := depthFirst_sampled src instant hkeyed _ _ _ _ h
  rw [infos_eq, List.map_map]
  constructor
  · intro hmem
    obtain ⟨n, hn, rfl⟩ := List.mem_map.mp hmem
    obtain ⟨o, ho, htold⟩ := hsampled.told n hn
    refine ⟨n.info.pid, o, (hs.mem_ids_iff _).mp (mem_ids hn), ho, ?_⟩
    rw [Function.comp_apply, htold, steady_reported]
  · rintro ⟨p, o, hp, ho, rfl⟩
    obtain ⟨n, hn, rfl⟩ := List.mem_map.mp ((hs.mem_ids_iff p).mpr hp)
    obtain ⟨o', ho', htold⟩ := hsampled.told n hn
    rw [ho] at ho'
    cases ho'
    refine List.mem_map.mpr ⟨n, hn, ?_⟩
    rw [Function.comp_apply, htold, steady_reported]

end Search

/-! ## What polls report -/

/-- Two polls tell the same of the same processes, in any order, and keep samples of the same
ones. -/
structure SameReport (infos infos' : List Snapshot) (kept kept' : CpuSamples) : Prop where
  processes : (infos.map Snapshot.steady).Perm (infos'.map Snapshot.steady)
  validity : (infos.map fun s => (s.pid, s.isValid)).Perm (infos'.map fun s => (s.pid, s.isValid))
  totals : Together Summary.Alike (Summary.ofList infos) (Summary.ofList infos')
  kept : ∀ pid, pid ∈ kept ↔ pid ∈ kept'

structure SameTree (poll poll' : Poll ProcessTree) : Prop where
  report : SameReport poll.result.infos poll'.result.infos poll.samples poll'.samples
  totals : Together Summary.Alike (Summary.ofTree poll.result) (Summary.ofTree poll'.result)

def SameFamily (poll poll' : Poll (List Snapshot)) : Prop :=
  SameReport poll.result poll'.result poll.samples poll'.samples

theorem residentSum_steady (infos : List Snapshot) :
    residentSum (infos.map Snapshot.steady) = residentSum infos := by
  rw [Summary.residentSum_eq, Summary.residentSum_eq, List.map_map]
  rfl

theorem threadSum_steady (infos : List Snapshot) :
    threadSum (infos.map Snapshot.steady) = threadSum infos := by
  rw [Summary.threadSum_eq, Summary.threadSum_eq, List.map_map]
  rfl

theorem SameReport.of_perm {infos infos' : List Snapshot} {kept kept' : CpuSamples}
    (h : (infos.map Snapshot.steady).Perm (infos'.map Snapshot.steady))
    (hkept : ∀ pid, pid ∈ kept ↔ pid ∈ kept') : SameReport infos infos' kept kept' where
  processes := h
  validity := by
    have hvalidity := h.map fun s => (s.pid, s.isValid)
    rw [List.map_map, List.map_map] at hvalidity
    exact hvalidity
  totals := by
    refine Summary.ofList_together ?_ ?_ ?_
    · simpa using h.length_eq.symm
    · rw [← residentSum_steady, Summary.residentSum_perm h, residentSum_steady]
    · rw [← threadSum_steady, Summary.threadSum_perm h, threadSum_steady]
  kept := hkept

theorem Polled.mem_iff {src : Source} {instant : Pid → Nat} {samples after : CpuSamples}
    {root : Pid} {infos : List Snapshot} (h : Polled src instant samples root infos after)
    (p : Pid) : p ∈ after ↔
      Reaches src root p ∧ ((sampleOf src instant p).isSome ∨ p ∈ samples) := by
  rw [Std.TreeMap.mem_iff_isSome_getElem?, Std.TreeMap.mem_iff_isSome_getElem?]
  by_cases hp : Reaches src root p
  · rw [h.kept p hp, Option.isSome_or, Bool.or_eq_true]
    exact (and_iff_right hp).symm
  · rw [h.dropped p hp]
    simp [hp]

theorem map_steady_validInfos (result : ProcessTree) :
    (validInfos [result]).map Snapshot.steady =
      (result.infos.map Snapshot.steady).filter (·.isValid) := by
  rw [validInfos, ← infos_eq, List.filter_map]
  rfl

theorem family_unread {src : Source} {instant : Pid → Nat} {samples : CpuSamples} {root : Pid}
    {descendants : Bool} {e : Overflow} (h : src.read root = .error e) :
    family src instant samples root descendants = .error e := by
  rw [family, snapshot, h]

theorem finishes_of_tree {src : Source} {instant : Pid → Nat} {samples : CpuSamples} {root : Pid}
    {poll : Poll ProcessTree} (h : tree src instant samples root = .ok poll) :
    Finishes src instant samples root := by
  obtain ⟨m, hrun, -⟩ := exists_depthFirst_of_tree h
  exact ⟨poll.result, m, hrun⟩

theorem finishes_of_family {src : Source} {instant : Pid → Nat} {samples : CpuSamples}
    {root : Pid} {o : Observation} {poll : Poll (List Snapshot)} (ho : src.read root = .ok o)
    (hvalid : o.info.isValid) (h : family src instant samples root true = .ok poll) :
    Finishes src instant samples root := by
  obtain ⟨samples', hroot, -⟩ := snapshot_spec src instant samples root o ho
  rw [← isValid_reported o (instant root) samples[root]?] at hvalid
  obtain ⟨result, m, hrun, -⟩ := exists_depthFirst_of_family hroot hvalid h
  exact ⟨result, m, hrun⟩

section Polls

variable {a b : Source} (h : Agree a b)
  (ha : ∀ pid o, a.read pid = .ok o → o.info.pid = pid)
  (hb : ∀ pid o, b.read pid = .ok o → o.info.pid = pid)
  {instant instant' : Pid → Nat} {samples : CpuSamples} {root : Pid}

include h ha hb

theorem steady_perm {result result' : ProcessTree} {m m' : Met.After ⟨.empty, samples⟩}
    (hrun : depthFirst a instant ⟨.empty, samples⟩ [root] = .ok ([result], m))
    (hrun' : depthFirst b instant' ⟨.empty, samples⟩ [root] = .ok ([result'], m')) :
    (result.infos.map Snapshot.steady).Perm (result'.infos.map Snapshot.steady) := by
  have hnodup {infos : List Snapshot} (hpids : (infos.map (·.pid)).Nodup) :
      (infos.map Snapshot.steady).Nodup := by
    refine List.Nodup.of_map (·.pid) ?_
    rw [List.map_map]
    exact hpids
  -- Neither list has a process twice, so it is enough that they have the same members.
  rw [List.perm_ext_iff_of_nodup (hnodup (polled_of_depthFirst ha hrun).nodup)
    (hnodup (polled_of_depthFirst hb hrun').nodup)]
  intro s
  rw [mem_steady_iff ha hrun, mem_steady_iff hb hrun']
  constructor
  · rintro ⟨p, o, hp, ho, rfl⟩
    obtain ⟨o', ho', hsame⟩ := h.read_ok ho
    exact ⟨p, o', (reaches_agree h root p).mp hp, ho', hsame.info.symm⟩
  · rintro ⟨p, o', hp, ho', rfl⟩
    obtain ⟨o, ho, hsame⟩ := h.symm.read_ok ho'
    exact ⟨p, o, (reaches_agree h root p).mpr hp, ho, hsame.info.symm⟩

theorem mem_kept_iff {result result' : ProcessTree} {m m' : Met.After ⟨.empty, samples⟩}
    (hrun : depthFirst a instant ⟨.empty, samples⟩ [root] = .ok ([result], m))
    (hrun' : depthFirst b instant' ⟨.empty, samples⟩ [root] = .ok ([result'], m')) (pid : Pid) :
    pid ∈ (evict m.1.samples m.1.visited).1 ↔ pid ∈ (evict m'.1.samples m'.1.visited).1 := by
  rw [(polled_of_depthFirst ha hrun).mem_iff, (polled_of_depthFirst hb hrun').mem_iff,
    reaches_agree h root, h.isSome_sampleOf instant instant']

/-- Both searches come to an end, or neither does. -/
theorem finishes_agree (instant' : Pid → Nat) :
    Finishes a instant samples root ↔ Finishes b instant' samples root := by
  rw [finishes_iff ha, finishes_iff hb]
  constructor
  · intro hread p hp
    obtain ⟨o, ho⟩ := hread p ((reaches_agree h root p).mpr hp)
    obtain ⟨o', ho', -⟩ := h.read_ok ho
    exact ⟨o', ho'⟩
  · intro hread p hp
    obtain ⟨o, ho⟩ := hread p ((reaches_agree h root p).mp hp)
    obtain ⟨o', ho', -⟩ := h.symm.read_ok ho
    exact ⟨o', ho'⟩

theorem tree_unordered (instant instant' : Pid → Nat) (samples : CpuSamples) (root : Pid) :
    Together SameTree (tree a instant samples root) (tree b instant' samples root) := by
  by_cases hrun : Finishes a instant samples root
  · obtain ⟨result', m', hrun'⟩ := (finishes_agree h ha hb instant').mp hrun
    obtain ⟨result, m, hrun⟩ := hrun
    have hreport := SameReport.of_perm (steady_perm h ha hb hrun hrun')
      (mem_kept_iff h ha hb hrun hrun')
    rw [tree_of_depthFirst hrun, tree_of_depthFirst hrun']
    refine .done ⟨hreport, ?_⟩
    rw [Summary.ofTree_eq_ofList, Summary.ofTree_eq_ofList]
    exact hreport.totals
  · have hrun' := (finishes_agree h ha hb instant').not.mp hrun
    exact .of_failing (fun poll htree => hrun (finishes_of_tree htree))
      fun poll htree => hrun' (finishes_of_tree htree)

theorem descendants_unordered (instant instant' : Pid → Nat) (samples : CpuSamples) (root : Pid) :
    Together SameFamily (family a instant samples root true)
      (family b instant' samples root true) := by
  cases hread : a.read root with
  | error e =>
    obtain ⟨e', hread'⟩ := h.read_error hread
    rw [family_unread hread, family_unread hread']
    exact .failed e e'
  | ok o =>
    obtain ⟨o', hread', hsame⟩ := h.read_ok hread
    by_cases hvalid : o.info.isValid = true
    · have hvalid' : o'.info.isValid = true := hsame.isValid.symm.trans hvalid
      by_cases hrun : Finishes a instant samples root
      · obtain ⟨result', m', hrun'⟩ := (finishes_agree h ha hb instant').mp hrun
        obtain ⟨result, m, hrun⟩ := hrun
        rw [family_of_depthFirst hrun ((isValid_root hread hrun).trans hvalid),
          family_of_depthFirst hrun' ((isValid_root hread' hrun').trans hvalid')]
        refine .done (.of_perm ?_ (mem_kept_iff h ha hb hrun hrun'))
        rw [map_steady_validInfos, map_steady_validInfos]
        exact (steady_perm h ha hb hrun hrun').filter _
      · have hrun' := (finishes_agree h ha hb instant').not.mp hrun
        exact .of_failing (fun poll hfamily => hrun (finishes_of_family hread hvalid hfamily))
          fun poll hfamily => hrun' (finishes_of_family hread' hvalid' hfamily)
    · have hvalid' : ¬ o'.info.isValid = true := by rwa [← hsame.isValid]
      rw [family_gone a instant samples root true hread hvalid,
        family_gone b instant' samples root true hread' hvalid']
      exact .done (.of_perm .rfl fun _ => Iff.rfl)

theorem family_unordered (instant instant' : Pid → Nat) (samples : CpuSamples) (root : Pid)
    (descendants : Bool) :
    Together SameFamily (family a instant samples root descendants)
      (family b instant' samples root descendants) := by
  cases descendants with
  | true => exact descendants_unordered h ha hb instant instant' samples root
  | false =>
    rw [family_childless, family_childless]
    exact descendants_unordered h.childless ha hb instant instant' samples root

end Polls

end Monitor

end Overseer
