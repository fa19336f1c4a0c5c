import Overseer.Log.Writer
import Overseer.Supervision.Step

/-! What one step of a supervised program can do. `transition_of_step` names the cases with their
guards; `transition_log`: only receiving and closing touch the log. -/

namespace Overseer.Supervision

open Log (Stream)
open Programs (ExitStatus)

namespace State

variable (s : State) (p : Pipe) (stream : Stream)

theorem pipe_setPipe (x : Stream) :
    (s.setPipe p stream).pipe x = if x = stream then p else s.pipe x := by
  cases stream <;> cases x <;> rfl

theorem pipe_congr {s u : State} (hout : u.stdout = s.stdout) (herr : u.stderr = s.stderr)
    (x : Stream) : u.pipe x = s.pipe x := by
  cases x
  · exact hout
  · exact herr

@[simp] theorem setPipe_tree : (s.setPipe p stream).tree = s.tree := by cases stream <;> rfl

@[simp] theorem setPipe_writer : (s.setPipe p stream).writer = s.writer := by cases stream <;> rfl

@[simp] theorem setPipe_channel : (s.setPipe p stream).channel = s.channel := by
  cases stream <;> rfl

@[simp] theorem setPipe_phase : (s.setPipe p stream).phase = s.phase := by cases stream <;> rfl

end State

/-- The steps there are, with what each needs and what it leads to. -/
inductive Transition (clock : Nat → Timestamp) (s : State) : Action → State → Prop
  | write {stream : Stream} {bytes : ByteArray} (hopen : (s.pipe stream).isOpen = true) :
      Transition clock s (.write stream bytes)
        (s.setPipe { s.pipe stream with unread := (s.pipe stream).unread ++ bytes } stream)
  | hangUp {stream : Stream} :
      Transition clock s (.hangUp stream)
        (s.setPipe { s.pipe stream with isOpen := false } stream)
  | read {stream : Stream} {count : Nat} (hread : (s.pipe stream).isRead = true)
      (hsome : 0 < count) (hchunk : count ≤ maxChunk)
      (hthere : count ≤ (s.pipe stream).unread.size) (hopen : isClosed s.phase = false) :
      Transition clock s (.read stream count)
        { s.setPipe { s.pipe stream with
              unread := (s.pipe stream).unread.extract count (s.pipe stream).unread.size } stream with
          channel := s.channel ++ [(stream, (s.pipe stream).unread.extract 0 count)] }
  | endOfPipe {stream : Stream} (hclosed : (s.pipe stream).isOpen = false)
      (hempty : (s.pipe stream).unread.size = 0) :
      Transition clock s (.endOfPipe stream)
        (s.setPipe { s.pipe stream with isRead := false } stream)
  | receive {stream : Stream} {chunk : ByteArray} {rest : List (Stream × ByteArray)}
      (hchannel : s.channel = (stream, chunk) :: rest) (hopen : isClosed s.phase = false) :
      Transition clock s .receive ({ s with channel := rest }.append clock stream chunk)
  | poll {total : Summary} (hrunning : s.phase = .running) :
      Transition clock s (.tick (some total)) { s with
        polls := s.polls + 1, lastSummary := some total
        events := s.events ++ [.instanceResources] }
  | emptyPoll (hrunning : s.phase = .running) : Transition clock s (.tick none) s
  | exit {ending : ExitStatus} (hrunning : s.phase = .running) :
      Transition clock s (.exit ending) { s with phase := .draining ending }
  | timeout {ending : ExitStatus} (hdraining : s.phase = .draining ending) :
      Transition clock s .timeout (s.close (lastClock clock) ending true)
  | finish {ending : ExitStatus} (hdraining : s.phase = .draining ending)
      (hchannel : s.channel = []) (hread : ∀ stream, (s.pipe stream).isRead = false) :
      Transition clock s .finish (s.close (lastClock clock) ending false)

theorem transition_of_step {clock : Nat → Timestamp} {s u : State} {a : Action}
    (h : step clock s a = some u) : Transition clock s a u := by
  cases a with
  | write stream bytes =>
    simp only [step] at h
    split at h
    · next hopen =>
      cases h
      exact .write hopen
    · cases h
  | hangUp stream =>
    cases h
    exact .hangUp
  | read stream count =>
    simp only [step] at h
    split at h
    · next hguard =>
      obtain ⟨hread, hsome, hchunk, hthere, hopen⟩ := hguard
      cases h
      exact .read hread hsome hchunk hthere (by simpa using hopen)
    · cases h
  | endOfPipe stream =>
    simp only [step] at h
    split at h
    · next hguard =>
      cases h
      exact .endOfPipe (by simpa using hguard.1) hguard.2
    · cases h
  | receive =>
    simp only [step] at h
    split at h
    · next stream chunk rest hchannel =>
      split at h
      · cases h
      · next hopen =>
        cases h
        exact .receive hchannel (by simpa using hopen)
    · cases h
  | tick summary =>
    simp only [step] at h
    split at h
    · next hrunning =>
      cases h
      exact .poll hrunning
    · next hrunning =>
      cases h
      exact .emptyPoll hrunning
    · cases h
  | exit ending =>
    simp only [step] at h
    split at h
    · next hrunning =>
      cases h
      exact .exit hrunning
    · cases h
  | timeout =>
    simp only [step] at h
    split at h
    · next ending hdraining =>
      cases h
      exact .timeout hdraining
    · cases h
  | finish =>
    simp only [step] at h
    split at h
    · next ending hdraining =>
      split at h
      · next hguard =>
        obtain ⟨hchannel, hout, herr⟩ := hguard
        cases h
        refine .finish hdraining (by simpa using hchannel) fun stream => ?_
        cases stream
        · exact (Bool.not_eq_true' _).mp hout
        · exact (Bool.not_eq_true' _).mp herr
      · cases h
    · cases h

/-- Only receiving and closing touch the log. -/
theorem transition_log {clock : Nat → Timestamp} {s u : State} {a : Action}
    (h : Transition clock s a u) (hreceive : a ≠ .receive) (htimeout : a ≠ .timeout)
    (hfinish : a ≠ .finish) : u.tree = s.tree ∧ u.writer = s.writer := by
  cases h with
  | write => exact ⟨s.setPipe_tree _ _, s.setPipe_writer _ _⟩
  | hangUp => exact ⟨s.setPipe_tree _ _, s.setPipe_writer _ _⟩
  | read => exact ⟨s.setPipe_tree _ _, s.setPipe_writer _ _⟩
  | endOfPipe => exact ⟨s.setPipe_tree _ _, s.setPipe_writer _ _⟩
  | receive => exact absurd rfl hreceive
  | poll => exact ⟨rfl, rfl⟩
  | emptyPoll => exact ⟨rfl, rfl⟩
  | exit => exact ⟨rfl, rfl⟩
  | timeout => exact absurd rfl htimeout
  | finish => exact absurd rfl hfinish

end Overseer.Supervision
