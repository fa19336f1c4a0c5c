import Mathlib.Data.List.Induction
import Overseer.Proofs.Monitor.Sampling

/-! Runs of one monitor over changing processes. `Answered` is what one request reports and keeps
of each process; `kept_latest` follows it through a run: the sample kept of a process is that of
the latest observation since which no poll has passed the process over. So a rate is taken
against that observation (`rate_since_latest`). -/

namespace Overseer.Monitor

/-- What a monitor can be asked for. -/
inductive Query
  | info (pid : Pid)
  | tree (root : Pid)
  | family (root : Pid) (descendants : Bool)

/-- What is asked for, with the processes there are then and the time at which each is read. -/
structure Request where
  table : Table
  instant : Pid → Nat
  query : Query

namespace Request

/-- The processes reported, and the samples kept. -/
def answer (r : Request) (samples : CpuSamples) : Except Overflow (List Snapshot × CpuSamples) :=
  match r.query with
  | .info pid =>
    (info r.table.source r.instant samples pid).map fun p => ([p.result], p.samples)
  | .tree root =>
    (tree r.table.source r.instant samples root).map fun p => (p.result.infos, p.samples)
  | .family root descendants =>
    (family r.table.source r.instant samples root descendants).map fun p => (p.result, p.samples)

def Reads (r : Request) (p : Pid) : Prop :=
  match r.query with
  | .info pid => p = pid
  | .tree root => Reaches r.table.source root p
  | .family root true => Reaches r.table.source root p
  | .family root false => p = root

/-- Whether samples are dropped: a family whose root is not valid leaves them all. -/
def Evicts (r : Request) : Prop :=
  match r.query with
  | .info _ => False
  | .tree _ => True
  | .family root _ => (r.table.read root).info.isValid

/-- It does not drop samples without having come to the process. -/
def Spares (r : Request) (p : Pid) : Prop := r.Evicts → r.Reads p

/-- It reads a process as valid, and its processor time is known. -/
structure Observes (r : Request) (p : Pid) (s : CpuSample) : Prop where
  reads : r.Reads p
  valid : (r.table.read p).info.isValid
  cpuMillis : (r.table.read p).cpuMillis = some s.cpuMillis
  observedAt : s.observedAt = r.instant p

theorem observes_iff (r : Request) (p : Pid) (s : CpuSample) :
    r.Observes p s ↔ r.Reads p ∧ taken (r.table.read p) (r.instant p) = some s := by
  unfold taken
  constructor
  · rintro ⟨hreads, hvalid, hcpu, hat⟩
    rw [if_pos hvalid, hcpu, ← hat]
    exact ⟨hreads, rfl⟩
  · rintro ⟨hreads, htaken⟩
    split at htaken
    · next hvalid =>
      obtain ⟨cpuMillis, hcpu, rfl⟩ := Option.map_eq_some_iff.mp htaken
      exact ⟨hreads, hvalid, hcpu, rfl⟩
    · cases htaken

theorem taken_eq_none {r : Request} {p : Pid} (hread : r.Reads p)
    (hnone : ∀ s, ¬ r.Observes p s) : taken (r.table.read p) (r.instant p) = none := by
  rw [Option.eq_none_iff_forall_ne_some]
  intro s hs
  exact hnone s ((observes_iff r p s).mpr ⟨hread, hs⟩)

/-! ## One request -/

/-- What a request reports and keeps of each process, by the samples before it alone. -/
structure Answered (r : Request) (before : CpuSamples) (infos : List Snapshot)
    (after : CpuSamples) : Prop where
  nodup : (infos.map (·.pid)).Nodup
  read : ∀ i ∈ infos, r.Reads i.pid
  rated : ∀ p s, r.Observes p s →
    ∃ i ∈ infos, i.pid = p ∧ i.cpuPercent = rateSince before[p]? s
  observed : ∀ p s, r.Observes p s → after[p]? = some s
  spared : ∀ p, (∀ s, ¬ r.Observes p s) → r.Spares p → after[p]? = before[p]?
  dropped : ∀ p, ¬ r.Spares p → after[p]? = none

section Cases

variable {t : Table} {instant : Pid → Nat} {before after : CpuSamples} {infos : List Snapshot}

theorem answer_info {pid : Pid} {poll : Poll Snapshot}
    (h : info t.source instant before pid = .ok poll) :
    answer ⟨t, instant, .info pid⟩ before = .ok ([poll.result], poll.samples) := by
  simp only [answer, h, Except.map]

theorem answer_tree {root : Pid} {poll : Poll ProcessTree}
    (h : tree t.source instant before root = .ok poll) :
    answer ⟨t, instant, .tree root⟩ before = .ok (poll.result.infos, poll.samples) := by
  simp only [answer, h, Except.map]

theorem answer_family {root : Pid} {descendants : Bool} {poll : Poll (List Snapshot)}
    (h : family t.source instant before root descendants = .ok poll) :
    answer ⟨t, instant, .family root descendants⟩ before = .ok (poll.result, poll.samples) := by
  simp only [answer, h, Except.map]

theorem rated_of_mem {p : Pid} {s : CpuSample} (htaken : taken (t.read p) (instant p) = some s)
    (h : reported (t.read p) (instant p) before[p]? ∈ infos) :
    ∃ i ∈ infos, i.pid = p ∧ i.cpuPercent = rateSince before[p]? s := by
  refine ⟨_, h, ?_, ?_⟩
  · rw [pid_reported]
    exact keyed_source t p _ rfl
  · unfold reported
    rw [htaken]

/-- A poll that drops samples, of these processes or of them without their children. -/
theorem answered_of_polled {query : Query} {src : Source} {root : Pid}
    (hsrc : ∀ p, src.read p = .ok (t.read p))
    (hreads : ∀ p, Reads ⟨t, instant, query⟩ p ↔ Reaches src root p)
    (hevicts : Evicts ⟨t, instant, query⟩) (h : Polled src instant before root infos after) :
    Answered ⟨t, instant, query⟩ before infos after := by
  have hsample (p : Pid) : sampleOf src instant p = taken (t.read p) (instant p) := by
    rw [sampleOf, hsrc]
  have hspares (p : Pid) : Spares ⟨t, instant, query⟩ p ↔ Reaches src root p :=
    ⟨fun hp => (hreads p).mp (hp hevicts), fun hp _ => (hreads p).mpr hp⟩
  refine ⟨h.nodup, fun i hi => (hreads _).mpr (h.reached i hi), ?rated, ?observed, ?spared,
    fun p hp => h.dropped p (mt (hspares p).mpr hp)⟩
  case rated =>
    intro p s hs
    obtain ⟨hread, htaken⟩ := (observes_iff _ p s).mp hs
    exact rated_of_mem htaken (h.told p _ ((hreads p).mp hread) (hsrc p) hs.valid)
  case observed =>
    intro p s hs
    obtain ⟨hread, htaken⟩ := (observes_iff _ p s).mp hs
    rw [h.kept p ((hreads p).mp hread), hsample, htaken]
    rfl
  case spared =>
    intro p hnone hp
    have hread := (hspares p).mp hp
    have htaken : taken (t.read p) (instant p) = none :=
      taken_eq_none ((hreads p).mpr hread) hnone
    rw [h.kept p hread, hsample, htaken]
    rfl

theorem answered_info (t : Table) (instant : Pid → Nat) (before : CpuSamples) (pid : Pid) :
    ∃ infos after, answer ⟨t, instant, .info pid⟩ before = .ok (infos, after) ∧
      Answered ⟨t, instant, .info pid⟩ before infos after := by
  obtain ⟨samples, hread, hkept⟩ :=
    snapshot_spec t.source instant before pid (t.read pid) rfl
  have hinfo : info t.source instant before pid =
      .ok ⟨reported (t.read pid) (instant pid) before[pid]?, samples, []⟩ := by
    rw [info, hread]
  refine ⟨_, _, answer_info hinfo, List.nodup_singleton _, ?read, ?rated, ?observed, ?spared,
    fun p hp => absurd False.elim hp⟩
  case read =>
    intro i hi
    rw [List.mem_singleton.mp hi]
    exact (pid_reported _ _ _).trans (keyed_source t pid _ rfl)
  case rated =>
    intro p s hs
    obtain ⟨rfl, htaken⟩ := (observes_iff _ p s).mp hs
    exact rated_of_mem htaken List.mem_cons_self
  case observed =>
    intro p s hs
    obtain ⟨rfl, htaken⟩ := (observes_iff _ p s).mp hs
    rw [hkept, if_pos rfl, htaken]
    rfl
  case spared =>
    intro p hnone _
    rw [hkept]
    by_cases hp : p = pid
    · subst hp
      have htaken : taken (t.read p) (instant p) = none :=
        taken_eq_none (r := ⟨t, instant, .info p⟩) rfl hnone
      rw [if_pos rfl, htaken]
      rfl
    · rw [if_neg hp]

theorem answered_tree (t : Table) (instant : Pid → Nat) (before : CpuSamples) (root : Pid) :
    ∃ infos after, answer ⟨t, instant, .tree root⟩ before = .ok (infos, after) ∧
      Answered ⟨t, instant, .tree root⟩ before infos after := by
  obtain ⟨poll, hpoll, hpolled⟩ := tree_polled t instant before root
  exact ⟨_, _, answer_tree hpoll,
    answered_of_polled (fun _ => rfl) (fun _ => Iff.rfl) trivial hpolled⟩

/-- A family whose root is not valid reads nothing else. -/
theorem reads_gone {root p : Pid} {descendants : Bool} (hroot : ¬ (t.read root).info.isValid) :
    Reads ⟨t, instant, .family root descendants⟩ p ↔ p = root := by
  cases descendants with
  | false => exact Iff.rfl
  | true =>
    constructor
    · exact eq_of_reaches (by simp [expand, Table.source, hroot])
    · rintro rfl
      exact .root

theorem answered_gone (t : Table) (instant : Pid → Nat) (before : CpuSamples) (root : Pid)
    (descendants : Bool) (hroot : ¬ (t.read root).info.isValid) :
    ∃ infos after, answer ⟨t, instant, .family root descendants⟩ before = .ok (infos, after) ∧
      Answered ⟨t, instant, .family root descendants⟩ before infos after := by
  have hunseen (p : Pid) (s : CpuSample) :
      ¬ Observes ⟨t, instant, .family root descendants⟩ p s := by
    intro hs
    have hp : p = root := (reads_gone hroot).mp hs.reads
    exact hroot (hp ▸ hs.valid)
  exact ⟨_, _, answer_family (family_gone t.source instant before root descendants rfl hroot), {
    nodup := List.nodup_nil
    read := fun i hi => absurd hi List.not_mem_nil
    rated := fun p s hs => absurd hs (hunseen p s)
    observed := fun p s hs => absurd hs (hunseen p s)
    spared := fun p _ _ => rfl
    dropped := fun p hp => absurd (fun hevicts => absurd hevicts hroot) hp }⟩

theorem answered_family (t : Table) (instant : Pid → Nat) (before : CpuSamples) (root : Pid)
    (descendants : Bool) :
    ∃ infos after, answer ⟨t, instant, .family root descendants⟩ before = .ok (infos, after) ∧
      Answered ⟨t, instant, .family root descendants⟩ before infos after := by
  by_cases hroot : (t.read root).info.isValid
  · cases descendants with
    | true =>
      obtain ⟨poll, hpoll, hpolled⟩ :=
        family_polled t.source (exists_read t) (keyed_source t) instant before rfl hroot
      exact ⟨_, _, answer_family hpoll,
        answered_of_polled (fun _ => rfl) (fun _ => Iff.rfl) hroot hpolled⟩
    | false =>
      obtain ⟨poll, hpoll, hpolled⟩ := family_polled (childless t.source) (exists_read t)
        (keyed_source t) instant before rfl hroot
      rw [← family_childless] at hpoll
      exact ⟨_, _, answer_family hpoll, answered_of_polled (fun _ => rfl)
        (fun p => (reaches_childless t.source root p).symm) hroot hpolled⟩
  · exact answered_gone t instant before root descendants hroot

end Cases

theorem exists_answered (r : Request) (before : CpuSamples) :
    ∃ infos after, r.answer before = .ok (infos, after) ∧ r.Answered before infos after := by
  obtain ⟨t, instant, query⟩ := r
  cases query with
  | info pid => exact answered_info t instant before pid
  | tree root => exact answered_tree t instant before root
  | family root descendants => exact answered_family t instant before root descendants

theorem Observes.unique {r : Request} {p : Pid} {s s' : CpuSample} (h : r.Observes p s)
    (h' : r.Observes p s') : s = s' := by
  have htaken := ((observes_iff r p s).mp h).2
  rw [((observes_iff r p s').mp h').2] at htaken
  exact (Option.some.inj htaken).symm

end Request

/-! ## Runs -/

/-- The samples that a new monitor keeps after some requests. -/
def keptAfter (requests : List Request) : Except Overflow CpuSamples :=
  requests.foldlM (fun samples r => (r.answer samples).map (·.2)) ∅

/-- An observation that is still alive after the requests since: each of those that dropped
samples came to the process. -/
def Live (earlier : List Request) (p : Pid) (since : List Request) (s : CpuSample) : Prop :=
  ∃ before r, earlier = before ++ r :: since ∧ r.Observes p s ∧ ∀ q ∈ since, q.Spares p

/-- The live observation with the fewest requests since. -/
def Latest (earlier : List Request) (p : Pid) (since : List Request) (s : CpuSample) : Prop :=
  Live earlier p since s ∧ ∀ since' s', Live earlier p since' s' → since.length ≤ since'.length

section Runs

variable {earlier since : List Request} {r : Request} {p : Pid} {s : CpuSample}

theorem keptAfter_concat {samples kept : CpuSamples} {infos : List Snapshot}
    (h : keptAfter earlier = .ok samples) (hanswer : r.answer samples = .ok (infos, kept)) :
    keptAfter (earlier ++ [r]) = .ok kept := by
  unfold keptAfter at h ⊢
  rw [List.foldlM_append, h]
  show (r.answer samples).map (·.2) >>= pure = _
  rw [hanswer]
  rfl

theorem live_nil : ¬ Live [] p since s := by
  rintro ⟨before, r, h, -⟩
  simp at h

/-- An observation is live after one more request if that made it, or spared the process. -/
theorem live_concat : Live (earlier ++ [r]) p since s ↔
    (since = [] ∧ r.Observes p s) ∨
      ∃ since', since = since' ++ [r] ∧ Live earlier p since' s ∧ r.Spares p := by
  constructor
  · rintro ⟨before, q, h, hq, hspares⟩
    induction since using List.reverseRecOn with
    | nil =>
      obtain ⟨rfl, hr⟩ := List.append_inj' h rfl
      obtain rfl := List.singleton_inj.mp hr
      exact .inl ⟨rfl, hq⟩
    | append_singleton since' last =>
      rw [← List.cons_append, ← List.append_assoc] at h
      obtain ⟨rfl, hr⟩ := List.append_inj' h rfl
      obtain rfl := List.singleton_inj.mp hr
      exact .inr ⟨since', rfl, ⟨before, q, rfl, hq, fun q' hq' =>
        hspares q' (List.mem_append_left _ hq')⟩, hspares r (by simp)⟩
  · rintro (⟨rfl, hr⟩ | ⟨since', rfl, ⟨before, q, rfl, hq, hspares⟩, hr⟩)
    · exact ⟨earlier, r, rfl, hr, by simp⟩
    · refine ⟨before, q, by simp, hq, fun q' hq' => ?_⟩
      rcases List.mem_append.mp hq' with hq' | hq'
      · exact hspares q' hq'
      · exact List.mem_singleton.mp hq' ▸ hr

theorem live_singleton : Live [r] p since s ↔ since = [] ∧ r.Observes p s := by
  rw [← List.nil_append [r], live_concat]
  simp [live_nil]

theorem latest_of_observes (h : r.Observes p s) : Latest (earlier ++ [r]) p [] s :=
  ⟨live_concat.mpr (.inl ⟨rfl, h⟩), fun _ _ _ => Nat.zero_le _⟩

theorem latest_concat (h : Latest earlier p since s) (hnone : ∀ s, ¬ r.Observes p s)
    (hspares : r.Spares p) : Latest (earlier ++ [r]) p (since ++ [r]) s := by
  refine ⟨live_concat.mpr (.inr ⟨since, rfl, h.1, hspares⟩), fun since' s' hlive => ?_⟩
  rcases live_concat.mp hlive with ⟨-, hr⟩ | ⟨since', rfl, hlive, -⟩
  · exact absurd hr (hnone s')
  · rw [List.length_append, List.length_append]
    exact Nat.add_le_add_right (h.2 since' s' hlive) 1

end Runs

/-- The samples kept are those of the latest live observations. -/
theorem kept_latest (earlier : List Request) :
    ∃ samples, keptAfter earlier = .ok samples ∧ ∀ p,
      (∀ s, samples[p]? = some s → ∃ since, Latest earlier p since s) ∧
      (samples[p]? = none → ∀ since s, ¬ Live earlier p since s) := by
  induction earlier using List.reverseRecOn with
  | nil =>
    refine ⟨∅, rfl, fun p => ⟨fun s hs => ?_, fun _ _ _ => live_nil⟩⟩
    simp at hs
  | append_singleton earlier r ih =>
    obtain ⟨samples, hsamples, hlatest⟩ := ih
    obtain ⟨infos, kept, hanswer, h⟩ := r.exists_answered samples
    refine ⟨kept, keptAfter_concat hsamples hanswer, fun p => ?_⟩
    by_cases hobserves : ∃ s, r.Observes p s
    · obtain ⟨s₀, hs₀⟩ := hobserves
      rw [h.observed p s₀ hs₀]
      refine ⟨fun s hs => ?_, fun hnone => by cases hnone⟩
      exact ⟨[], latest_of_observes (Option.some.inj hs ▸ hs₀)⟩
    · have hnone (s : CpuSample) : ¬ r.Observes p s := fun hs => hobserves ⟨s, hs⟩
      by_cases hspares : r.Spares p
      · rw [h.spared p hnone hspares]
        refine ⟨fun s hs => ?_, fun hs since s hlive => ?_⟩
        · obtain ⟨since, hlatest⟩ := (hlatest p).1 s hs
          exact ⟨since ++ [r], latest_concat hlatest hnone hspares⟩
        · rcases live_concat.mp hlive with ⟨-, hr⟩ | ⟨since', -, hlive', -⟩
          · exact hnone s hr
          · exact (hlatest p).2 hs since' s hlive'
      · rw [h.dropped p hspares]
        refine ⟨fun s hs => (by cases hs), fun _ since s hlive => ?_⟩
        rcases live_concat.mp hlive with ⟨-, hr⟩ | ⟨-, -, -, hr⟩
        · exact hnone s hr
        · exact hspares hr

/-- A new monitor answers every request after any others. It reports, and so samples, a process
once at most, and keeps of it what this request alone makes of the sample kept before. The rate
of a process is taken against the latest live observation of it: over the whole milliseconds
since, none of which pass where the clock went back, and 0 where there is no such observation. -/
theorem rate_since_latest (earlier : List Request) (r : Request) :
    ∃ samples infos kept, keptAfter earlier = .ok samples ∧
      r.answer samples = .ok (infos, kept) ∧ r.Answered samples infos kept ∧
      ∀ p s, r.Observes p s → ∃ i ∈ infos, i.pid = p ∧
        (((∀ since s', ¬ Live earlier p since s') ∧ i.cpuPercent = 0) ∨
          ∃ since s', Latest earlier p since s' ∧ i.cpuPercent =
            let wallMillis := (s.observedAt - s'.observedAt) / Timestamp.nanosPerMilli
            if wallMillis = 0 then 0
            else Float.ofNat (s.cpuMillis.toNat - s'.cpuMillis.toNat) /
              Float.ofNat wallMillis * 100) := by
  obtain ⟨samples, hsamples, hlatest⟩ := kept_latest earlier
  obtain ⟨infos, kept, hanswer, h⟩ := r.exists_answered samples
  refine ⟨samples, infos, kept, hsamples, hanswer, h, fun p s hs => ?_⟩
  obtain ⟨i, hi, hpid, hrate⟩ := h.rated p s hs
  refine ⟨i, hi, hpid, ?_⟩
  cases hkept : samples[p]? with
  | none =>
    rw [hkept] at hrate
    exact .inl ⟨(hlatest p).2 hkept, hrate⟩
  | some s' =>
    rw [hkept] at hrate
    obtain ⟨since, hsince⟩ := (hlatest p).1 s' hkept
    exact .inr ⟨since, s', hsince, hrate⟩

/-- A poll of one process, which has used some processor time. -/
def pollOfWorker (cpuMillis : UInt64) (instant : Nat) : Request :=
  ⟨noProcesses.insert 7 1 "worker" cpuMillis, fun _ => instant, .tree 7⟩

theorem observes_worker (cpuMillis : UInt64) (instant : Nat) :
    (pollOfWorker cpuMillis instant).Observes 7 ⟨cpuMillis, instant⟩ :=
  ⟨.root, rfl, rfl, rfl⟩

/-- Half a second of processor time within a second is a rate of 50. -/
theorem rate_since_latest_worker :
    ∃ samples infos kept, keptAfter [pollOfWorker 1000 0] = .ok samples ∧
      (pollOfWorker 1500 1000000000).answer samples = .ok (infos, kept) ∧
      ∃ i ∈ infos, i.pid = 7 ∧ i.cpuPercent = Float.ofNat 500 / Float.ofNat 1000 * 100 := by
  obtain ⟨samples, infos, kept, hsamples, hanswer, -, hrates⟩ :=
    rate_since_latest [pollOfWorker 1000 0] (pollOfWorker 1500 1000000000)
  obtain ⟨i, hi, hpid, hrate⟩ := hrates 7 _ (observes_worker 1500 1000000000)
  refine ⟨samples, infos, kept, hsamples, hanswer, i, hi, hpid, ?_⟩
  have hfirst : Live [pollOfWorker 1000 0] 7 [] ⟨1000, 0⟩ :=
    live_singleton.mpr ⟨rfl, observes_worker 1000 0⟩
  rcases hrate with ⟨hnone, -⟩ | ⟨since, s', ⟨hlive, hfewest⟩, hrate⟩
  · exact absurd hfirst (hnone _ _)
  · obtain rfl := List.length_eq_zero_iff.mp (Nat.le_zero.mp (hfewest [] _ hfirst))
    obtain rfl := (live_singleton.mp hlive).2.unique (observes_worker 1000 0)
    exact hrate

end Overseer.Monitor
