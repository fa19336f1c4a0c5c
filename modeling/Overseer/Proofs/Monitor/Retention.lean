import Mathlib.Data.Finset.Card
import Overseer.Proofs.Monitor.History

/-! Which samples a monitor keeps. A poll of descendants leaves samples of the ids that it came
to and of no others, a poll of one process adds at most the sample of that one, and a family
without a root changes nothing (`kept_exact`). So after a poll of descendants there are at most
as many samples as ids that it came to and processes polled alone since. -/

namespace Overseer.Monitor

/-- A process that is valid and whose processor time is known. -/
def Measured (t : Table) (p : Pid) : Prop :=
  (t.read p).info.isValid ∧ (t.read p).cpuMillis.isSome

namespace Request

/-- The ids that a request comes to, as its search has marked them in the end. -/
def visited (r : Request) (samples : CpuSamples) : Except Overflow PidSet :=
  match r.query with
  | .info pid => .ok (.single pid)
  | .tree root =>
    (searchTree r.table.source r.instant ⟨.empty, #[], samples⟩ [(root, none)]).map (·.visited)
  | .family root descendants =>
    match snapshot r.table.source r.instant samples root with
    | .error e => .error e
    | .ok (info, samples) =>
      if info.isValid then
        (searchFamily r.table.source r.instant ⟨PidSet.single root, #[info], samples⟩
          (if descendants then r.table.source.children root else [])).map (·.visited)
      else .ok (.single root)

/-- The process of a poll of one process. -/
def polledAlone (r : Request) : Option Pid :=
  match r.query with
  | .info pid => some pid
  | _ => none

/-! ## The ids of one request -/

theorem mem_single {p root : Pid} : p ∈ PidSet.single root ↔ p = root := by
  show p ∈ Std.TreeSet.empty.insert root ↔ _
  rw [Std.TreeSet.mem_insert, Std.LawfulEqCmp.compare_eq_iff_eq]
  simp [eq_comm]

theorem exists_visited_tree (t : Table) (instant : Pid → Nat) (samples : CpuSamples) (root : Pid) :
    ∃ V, visited ⟨t, instant, .tree root⟩ samples = .ok V ∧
      ∀ p, p ∈ V ↔ Reaches t.source root p := by
  obtain ⟨result, m, hrun⟩ := exists_depthFirst t.source (exists_read t) instant samples root
  refine ⟨m.1.visited, ?_, mem_visited_iff (keyed_source t) hrun⟩
  simp only [visited, searchTree_of_depthFirst hrun, Except.map]

theorem exists_visited_family (t : Table) (instant : Pid → Nat) (samples : CpuSamples)
    (root : Pid) (hroot : (t.read root).info.isValid) :
    ∃ V, visited ⟨t, instant, .family root true⟩ samples = .ok V ∧
      ∀ p, p ∈ V ↔ Reaches t.source root p := by
  obtain ⟨result, m, hrun⟩ := exists_depthFirst t.source (exists_read t) instant samples root
  obtain ⟨info, samples', hread, hvalid, hsearch⟩ :=
    searchFamily_of_depthFirst hrun ((isValid_root rfl hrun).trans hroot)
  refine ⟨m.1.visited, ?_, mem_visited_iff (keyed_source t) hrun⟩
  simp only [visited, hread, hvalid, if_true, hsearch, Except.map]

theorem visited_root (t : Table) (instant : Pid → Nat) (samples : CpuSamples)
    (root : Pid) (descendants : Bool) (h : descendants → ¬ (t.read root).info.isValid) :
    visited ⟨t, instant, .family root descendants⟩ samples = .ok (.single root) := by
  obtain ⟨samples', hread, -⟩ := snapshot_spec t.source instant samples root (t.read root) rfl
  simp only [visited, hread, isValid_reported]
  by_cases hroot : (t.read root).info.isValid
  · have hdescendants : descendants = false := by simpa [hroot] using h
    simp [hroot, hdescendants, searchFamily, Except.map]
  · simp [hroot]

/-- A request comes to the ids that it reads. -/
theorem exists_visited (r : Request) (samples : CpuSamples) :
    ∃ V, r.visited samples = .ok V ∧ ∀ p, p ∈ V ↔ r.Reads p := by
  obtain ⟨t, instant, query⟩ := r
  cases query with
  | info pid => exact ⟨_, rfl, fun p => mem_single⟩
  | tree root => exact exists_visited_tree t instant samples root
  | family root descendants =>
    cases descendants with
    | false =>
      exact ⟨_, visited_root t instant samples root false (by simp), fun p => mem_single⟩
    | true =>
      by_cases hroot : (t.read root).info.isValid
      · exact exists_visited_family t instant samples root hroot
      · refine ⟨_, visited_root t instant samples root true fun _ => hroot, fun p => ?_⟩
        rw [mem_single, reads_gone hroot]

/-! ## The samples after one request -/

section Step

variable {r : Request} {before after : CpuSamples} {infos : List Snapshot} {p : Pid}

theorem exists_observes : (∃ s, r.Observes p s) ↔ r.Reads p ∧ Measured r.table p := by
  constructor
  · rintro ⟨s, h⟩
    exact ⟨h.reads, h.valid, by rw [h.cpuMillis]; rfl⟩
  · rintro ⟨hreads, hvalid, hcpu⟩
    obtain ⟨cpuMillis, hcpu⟩ := Option.isSome_iff_exists.mp hcpu
    exact ⟨⟨cpuMillis, r.instant p⟩, hreads, hvalid, hcpu, rfl⟩

/-- A sample is there because it was and the process was spared, or because it is new. -/
theorem Answered.mem_iff (h : r.Answered before infos after) :
    p ∈ after ↔ (p ∈ before ∧ r.Spares p) ∨ (r.Reads p ∧ Measured r.table p) := by
  rw [← exists_observes, Std.TreeMap.mem_iff_isSome_getElem?, Std.TreeMap.mem_iff_isSome_getElem?]
  by_cases hobserves : ∃ s, r.Observes p s
  · obtain ⟨s, hs⟩ := hobserves
    rw [h.observed p s hs]
    exact iff_of_true rfl (.inr ⟨s, hs⟩)
  · rw [or_iff_left hobserves]
    by_cases hspares : r.Spares p
    · rw [h.spared p (not_exists.mp hobserves) hspares, and_iff_left hspares]
    · rw [h.dropped p hspares]
      exact iff_of_false Bool.false_ne_true fun hp => hspares hp.2

theorem spares_of_not_evicts (h : ¬ r.Evicts) : r.Spares p := fun hevicts => absurd hevicts h

/-- Where no samples are dropped, the only process that can be sampled is the one polled alone. -/
theorem polledAlone_of_observes (hr : ¬ r.Evicts) (h : r.Reads p ∧ Measured r.table p) :
    r.polledAlone = some p := by
  obtain ⟨t, instant, query⟩ := r
  cases query with
  | info pid => exact congrArg some h.1.symm
  | tree root => exact absurd trivial hr
  | family root descendants =>
    have hroot : ¬ (t.read root).info.isValid := hr
    have hp : p = root := (reads_gone hroot).mp h.1
    exact absurd (hp ▸ h.2.1) hroot

theorem answer_gone {root : Pid} {descendants : Bool} (hquery : r.query = .family root descendants)
    (hroot : ¬ (r.table.read root).info.isValid) : r.answer before = .ok ([], before) := by
  obtain ⟨t, instant, query⟩ := r
  obtain rfl : query = .family root descendants := hquery
  exact answer_family (family_gone t.source instant before root descendants rfl hroot)

end Step

/-- The samples kept after a request that came to some ids, by those kept before. -/
structure Retained (r : Request) (before after : CpuSamples) (V : PidSet) : Prop where
  met : ∀ p, p ∈ V ↔ r.Reads p
  evicting : r.Evicts → ∀ p, p ∈ after ↔ (p ∈ before ∧ p ∈ V) ∨ (p ∈ V ∧ Measured r.table p)
  rootOnly : ∀ root, r.query = .family root false → ∀ p, p ∈ V ↔ p = root
  gone : ∀ root descendants, r.query = .family root descendants →
    ¬ (r.table.read root).info.isValid → after = before
  alone : ∀ pid, r.query = .info pid →
    ∀ p, p ∈ after ↔ p ∈ before ∨ (p = pid ∧ Measured r.table pid)

theorem Answered.retained {r : Request} {before after : CpuSamples} {infos : List Snapshot}
    {V : PidSet} (hanswer : r.answer before = .ok (infos, after))
    (h : r.Answered before infos after) (hV : ∀ p, p ∈ V ↔ r.Reads p) :
    r.Retained before after V := by
  refine ⟨hV, fun hevicts p => ?evicting, fun root hquery p => ?rootOnly,
    fun root descendants hquery hroot => ?gone, fun pid hquery p => ?alone⟩
  case evicting =>
    have hspares : r.Spares p ↔ p ∈ V := by
      rw [hV]
      exact ⟨fun hp => hp hevicts, fun hp _ => hp⟩
    rw [h.mem_iff, hspares, hV]
  case rootOnly =>
    rw [hV, Reads, hquery]
  case gone =>
    rw [answer_gone hquery hroot] at hanswer
    cases hanswer
    rfl
  case alone =>
    have hevicts : ¬ r.Evicts := by
      rw [Evicts, hquery]
      exact not_false
    have hreads : r.Reads p ↔ p = pid := by rw [Reads, hquery]
    rw [h.mem_iff, and_iff_left (spares_of_not_evicts hevicts), hreads]
    refine or_congr_right ⟨?_, ?_⟩
    · rintro ⟨rfl, hmeasured⟩
      exact ⟨rfl, hmeasured⟩
    · rintro ⟨rfl, hmeasured⟩
      exact ⟨rfl, hmeasured⟩

end Request

/-! ## Runs -/

open Request (polledAlone)

/-- While no samples are dropped, none are added but those of processes polled alone. -/
theorem kept_since {earlier since : List Request} {samples : CpuSamples}
    (hearlier : keptAfter earlier = .ok samples) (hsince : ∀ q ∈ since, ¬ q.Evicts) :
    ∃ last, keptAfter (earlier ++ since) = .ok last ∧
      ∀ p ∈ last, p ∈ samples ∨ p ∈ since.filterMap polledAlone := by
  induction since using List.reverseRecOn with
  | nil => exact ⟨samples, by rwa [List.append_nil], fun p hp => .inl hp⟩
  | append_singleton since q ih =>
    obtain ⟨kept, hkept, hmem⟩ := ih fun q' hq' => hsince q' (List.mem_append_left _ hq')
    obtain ⟨infos, last, hanswer, h⟩ := q.exists_answered kept
    have hq : ¬ q.Evicts := hsince q (by simp)
    refine ⟨last, ?_, fun p hp => ?_⟩
    · rw [← List.append_assoc]
      exact keptAfter_concat hkept hanswer
    · rw [List.filterMap_append, List.mem_append, ← or_assoc]
      rcases h.mem_iff.mp hp with ⟨hbefore, -⟩ | hnew
      · exact .inl (hmem p hbefore)
      · exact .inr (by simp [Request.polledAlone_of_observes hq hnew])

theorem size_le_card {samples : CpuSamples} {s : Finset Pid} (h : ∀ p ∈ samples, p ∈ s) :
    samples.size ≤ s.card := by
  rw [← Std.TreeMap.length_keys, ← List.toFinset_card_of_nodup Std.TreeMap.nodup_keys]
  refine Finset.card_le_card fun p hp => h p ?_
  rwa [List.mem_toFinset, Std.TreeMap.mem_keys] at hp

/-- A monitor that has answered any requests keeps, after one more, exactly the samples that
the request allows. If that dropped samples and no later request did, their number stays within
the ids that it came to and the different processes polled alone since. -/
theorem kept_exact (before : List Request) (r : Request) (since : List Request) :
    ∃ samples infos kept V, keptAfter before = .ok samples ∧
      r.answer samples = .ok (infos, kept) ∧ r.visited samples = .ok V ∧
      r.Retained samples kept V ∧
      (r.Evicts → (∀ q ∈ since, ¬ q.Evicts) →
        ∃ last, keptAfter (before ++ r :: since) = .ok last ∧
          last.size ≤ V.size + (since.filterMap polledAlone).toFinset.card) := by
  obtain ⟨samples, hsamples, -⟩ := kept_latest before
  obtain ⟨infos, kept, hanswer, h⟩ := r.exists_answered samples
  obtain ⟨V, hvisited, hV⟩ := r.exists_visited samples
  have hretained := h.retained hanswer hV
  refine ⟨samples, infos, kept, V, hsamples, hanswer, hvisited, hretained, ?_⟩
  intro hevicts hsince
  obtain ⟨last, hlast, hmem⟩ := kept_since (keptAfter_concat hsamples hanswer) hsince
  rw [List.append_assoc] at hlast
  refine ⟨last, hlast, ?_⟩
  calc last.size
      ≤ (V.toList.toFinset ∪ (since.filterMap polledAlone).toFinset).card := by
        refine size_le_card fun p hp => ?_
        rw [Finset.mem_union, List.mem_toFinset, List.mem_toFinset, Std.TreeSet.mem_toList]
        refine (hmem p hp).imp_left fun hkept => ?_
        rcases (hretained.evicting hevicts p).mp hkept with ⟨-, hp⟩ | ⟨hp, -⟩ <;> exact hp
    _ ≤ V.toList.toFinset.card + (since.filterMap polledAlone).toFinset.card :=
        Finset.card_union_le _ _
    _ = V.size + (since.filterMap polledAlone).toFinset.card := by
        rw [List.toFinset_card_of_nodup (PidSet.nodup_toList V), Std.TreeSet.length_toList]

/-- A poll of one process, which is not the worker. -/
def pollOfShell : Request := ⟨noProcesses.insert 8 1 "shell" 20, fun _ => 0, .info 8⟩

/-- The poll of the worker drops the sample of the shell, which polled again is the second. -/
theorem kept_exact_worker :
    ∃ (kept : CpuSamples) (V : PidSet) (last : CpuSamples),
      keptAfter [pollOfShell, pollOfWorker 1000 0] = .ok kept ∧
      (∀ p, p ∈ kept ↔ p = 7) ∧ (∀ p, p ∈ V ↔ p = 7) ∧
      keptAfter [pollOfShell, pollOfWorker 1000 0, pollOfShell] = .ok last ∧
      last.size ≤ V.size + 1 := by
  obtain ⟨samples, infos, kept, V, hsamples, hanswer, -, h, hbound⟩ :=
    kept_exact [pollOfShell] (pollOfWorker 1000 0) [pollOfShell]
  obtain ⟨last, hlast, hsize⟩ := hbound trivial (by simp [pollOfShell, Request.Evicts])
  have hV (p : Pid) : p ∈ V ↔ p = 7 := by
    rw [h.met]
    constructor
    · exact eq_of_reaches (by decide)
    · rintro rfl
      exact .root
  refine ⟨kept, V, last, keptAfter_concat hsamples hanswer, fun p => ?_, hV, hlast, hsize⟩
  rw [h.evicting trivial, hV]
  constructor
  · rintro (⟨-, hp⟩ | ⟨hp, -⟩) <;> exact hp
  · rintro rfl
    exact .inr ⟨rfl, by decide, by decide⟩

end Overseer.Monitor
