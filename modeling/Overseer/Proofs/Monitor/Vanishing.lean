import Overseer.Proofs.Monitor.History

/-! What becomes of the sample of a process that a poll has come to and found gone. The process
was visited, so its sample stays, and it is lost only when a later poll of descendants does not
come to the id. A new process under the same id is rated against it until then
(`rate_after_gone`). -/

namespace Overseer.Monitor

namespace Request

/-- A poll of descendants comes to a process, which is not valid. A tree has such a process as a
leaf, and a family leaves it out. -/
structure FindsGone (r : Request) (p : Pid) : Prop where
  evicts : r.Evicts
  reads : r.Reads p
  invalid : (r.table.read p).info.isValid = false

section Gone

variable {gone : Request} {p : Pid}

theorem FindsGone.spares (h : gone.FindsGone p) : gone.Spares p := fun _ => h.reads

theorem FindsGone.not_observes (h : gone.FindsGone p) (s : CpuSample) : ¬ gone.Observes p s := by
  intro hs
  have hvalid := hs.valid
  rw [h.invalid] at hvalid
  cases hvalid

/-- A tree tells which processes it has found gone. -/
theorem findsGone_tree (t : Table) (instant : Pid → Nat) (before : CpuSamples) (root p : Pid) :
    ∃ infos after, answer ⟨t, instant, .tree root⟩ before = .ok (infos, after) ∧
      (FindsGone ⟨t, instant, .tree root⟩ p ↔ ∃ i ∈ infos, i.pid = p ∧ i.isValid = false) := by
  obtain ⟨result, m, hrun⟩ := exists_depthFirst t.source (exists_read t) instant before root
  have hids := (depthFirst_searched t.source instant (keyed_source t) _ _ _ _ hrun).mem_ids_iff
  have hsampled := depthFirst_sampled t.source instant (keyed_source t) _ _ _ _ hrun
  refine ⟨_, _, answer_tree (tree_of_depthFirst hrun), ?_⟩
  dsimp only
  rw [infos_eq]
  constructor
  · intro h
    obtain ⟨n, hn, rfl⟩ := List.mem_map.mp ((hids p).mpr h.reads)
    obtain ⟨o, ho, htold⟩ := hsampled.told n hn
    refine ⟨n.info, List.mem_map_of_mem hn, rfl, ?_⟩
    rw [htold, isValid_reported, ← Except.ok.inj ho]
    exact h.invalid
  · rintro ⟨i, hi, rfl, hinvalid⟩
    obtain ⟨n, hn, rfl⟩ := List.mem_map.mp hi
    obtain ⟨o, ho, htold⟩ := hsampled.told n hn
    rw [htold, isValid_reported, ← Except.ok.inj ho] at hinvalid
    exact ⟨trivial, (hids _).mp (mem_ids hn), hinvalid⟩

end Gone

end Request

/-! ## Runs -/

section Runs

variable {earlier since : List Request} {samples : CpuSamples} {p : Pid}

/-- Requests that do not observe a process leave its sample as it is, until one drops samples
without having come to the process. -/
theorem kept_unobserved (hearlier : keptAfter earlier = .ok samples)
    (hnone : ∀ q ∈ since, ∀ s, ¬ q.Observes p s) :
    ∃ last, keptAfter (earlier ++ since) = .ok last ∧
      ((∀ q ∈ since, q.Spares p) → last[p]? = samples[p]?) ∧
      ((∃ q ∈ since, ¬ q.Spares p) → last[p]? = none) := by
  induction since using List.reverseRecOn with
  | nil => exact ⟨samples, by rwa [List.append_nil], fun _ => rfl, by simp⟩
  | append_singleton since q ih =>
    obtain ⟨kept, hkept, hspared, hdropped⟩ :=
      ih fun q' hq' => hnone q' (List.mem_append_left _ hq')
    obtain ⟨infos, last, hanswer, h⟩ := q.exists_answered kept
    have hq : ∀ s, ¬ q.Observes p s := hnone q (by simp)
    refine ⟨last, ?_, fun hall => ?_, fun hsome => ?_⟩
    · rw [← List.append_assoc]
      exact keptAfter_concat hkept hanswer
    · rw [h.spared p hq (hall q (by simp))]
      exact hspared fun q' hq' => hall q' (List.mem_append_left _ hq')
    · by_cases hspares : q.Spares p
      · rw [h.spared p hq hspares]
        obtain ⟨q', hq', hnot⟩ := hsome
        rcases List.mem_append.mp hq' with hq' | hq'
        · exact hdropped ⟨q', hq', hnot⟩
        · exact absurd (List.mem_singleton.mp hq' ▸ hspares) hnot
      · exact h.dropped p hspares

end Runs

/-- The rate of the first process observed under an id after a poll has found it gone. If each
poll of descendants since has come to the id, the rate is taken against the sample kept before
the process was gone. It is 0 if there was none, or if one of them has passed the id over. -/
theorem rate_after_gone (earlier since : List Request) (gone next : Request) (p : Pid)
    (s : CpuSample) (hgone : gone.FindsGone p) (hsince : ∀ q ∈ since, ∀ s, ¬ q.Observes p s)
    (hnext : next.Observes p s) :
    ∃ before samples infos kept, keptAfter earlier = .ok before ∧
      keptAfter (earlier ++ gone :: since) = .ok samples ∧
      next.answer samples = .ok (infos, kept) ∧
      ∃ i ∈ infos, i.pid = p ∧
        ((∀ q ∈ since, q.Spares p) → i.cpuPercent = rateSince before[p]? s) ∧
        ((∃ q ∈ since, ¬ q.Spares p) → i.cpuPercent = 0) := by
  obtain ⟨before, hbefore, -⟩ := kept_latest earlier
  have hnone : ∀ q ∈ gone :: since, ∀ s, ¬ q.Observes p s :=
    List.forall_mem_cons.mpr ⟨hgone.not_observes, hsince⟩
  obtain ⟨samples, hsamples, hspared, hdropped⟩ := kept_unobserved hbefore hnone
  obtain ⟨infos, kept, hanswer, h⟩ := next.exists_answered samples
  obtain ⟨i, hi, hpid, hrate⟩ := h.rated p s hnext
  refine ⟨before, samples, infos, kept, hbefore, hsamples, hanswer, i, hi, hpid, ?_, ?_⟩
  · intro hall
    rw [hrate, hspared (List.forall_mem_cons.mpr ⟨hgone.spares, hall⟩)]
  · rintro ⟨q, hq, hnot⟩
    rw [hrate, hdropped ⟨q, List.mem_cons_of_mem _ hq, hnot⟩]
    rfl

/-! ## An id that is used again -/

def childRuns : Table :=
  ((noProcesses.insert 1 0 "parent" 0).insert 2 1 "old" 1000).setChildren 1 [2]

/-- The parent still lists the child. -/
def childGone : Table := childRuns.erase 2

def childReplaced : Table := childGone.insert 2 1 "new" 1500

def firstPoll : Request := ⟨childRuns, fun _ => 0, .tree 1⟩

def gonePoll : Request := ⟨childGone, fun _ => 0, .tree 1⟩

def laterPoll : Request := ⟨childReplaced, fun _ => 1000000000, .info 2⟩

theorem firstPoll_observes : firstPoll.Observes 2 ⟨1000, 0⟩ :=
  ⟨.child .root (by decide), by decide, by decide, rfl⟩

theorem gonePoll_findsGone : gonePoll.FindsGone 2 :=
  ⟨trivial, .child .root (by decide), by decide⟩

theorem laterPoll_observes : laterPoll.Observes 2 ⟨1500, 1000000000⟩ :=
  ⟨rfl, by decide, by decide, rfl⟩

/-- The rate of the new child is taken against the old one. -/
theorem rate_after_gone_replaced :
    gonePoll.FindsGone 2 ∧ laterPoll.Observes 2 ⟨1500, 1000000000⟩ ∧
      ∃ before samples infos kept, keptAfter [firstPoll] = .ok before ∧
        keptAfter [firstPoll, gonePoll] = .ok samples ∧
        laterPoll.answer samples = .ok (infos, kept) ∧
        ∃ i ∈ infos, i.pid = 2 ∧
          i.cpuPercent = rateSince before[(2 : Pid)]? ⟨1500, 1000000000⟩ := by
  refine ⟨gonePoll_findsGone, laterPoll_observes, ?_⟩
  obtain ⟨before, samples, infos, kept, hbefore, hsamples, hanswer, i, hi, hpid, hrate, -⟩ :=
    rate_after_gone [firstPoll] [] gonePoll laterPoll 2 _ gonePoll_findsGone
      (fun _ hq => absurd hq List.not_mem_nil) laterPoll_observes
  exact ⟨before, samples, infos, kept, hbefore, hsamples, hanswer, i, hi, hpid,
    hrate fun _ hq => absurd hq List.not_mem_nil⟩

/-- A tree has found the old child gone, and the new one is reported at a rate of 50. -/
theorem replaced_child_rated :
    ∃ first tree second infos last, keptAfter [firstPoll] = .ok first ∧
      gonePoll.answer first = .ok (tree, second) ∧
      (∃ i ∈ tree, i.pid = 2 ∧ i.isValid = false) ∧
      laterPoll.Observes 2 ⟨1500, 1000000000⟩ ∧ laterPoll.answer second = .ok (infos, last) ∧
      ∃ i ∈ infos, i.pid = 2 ∧ i.cpuPercent = 50 := by
  obtain ⟨reports, first, hfirst, h₁⟩ := firstPoll.exists_answered ∅
  obtain ⟨tree, second, hsecond, h₂⟩ := gonePoll.exists_answered first
  obtain ⟨infos, last, hlast, h₃⟩ := laterPoll.exists_answered second
  obtain ⟨i, hi, hpid, hrate⟩ := h₃.rated 2 _ laterPoll_observes
  have hstart : keptAfter ([] ++ [firstPoll]) = .ok first := keptAfter_concat rfl hfirst
  refine ⟨first, tree, second, infos, last, hstart, hsecond, ?_, laterPoll_observes, hlast, i, hi,
    hpid, ?_⟩
  · obtain ⟨tree', second', hsecond', hgone⟩ :=
      Request.findsGone_tree childGone (fun _ => 0) first 1 2
    obtain ⟨rfl, rfl⟩ := Prod.mk.inj (Except.ok.inj (hsecond.symm.trans hsecond'))
    exact hgone.mp gonePoll_findsGone
  · have hkept : second[(2 : Pid)]? = some ⟨1000, 0⟩ := by
      rw [h₂.spared 2 gonePoll_findsGone.not_observes gonePoll_findsGone.spares]
      exact h₁.observed 2 _ firstPoll_observes
    rw [hrate, hkept]
    decide +kernel

end Overseer.Monitor
