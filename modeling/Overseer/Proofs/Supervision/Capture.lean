import Overseer.Proofs.Log.Opening
import Overseer.Proofs.Log.Streams
import Overseer.Proofs.Supervision.Transition
import Overseer.Supervision

/-! Supervision loses no output, in whatever order its steps come. A `Ledger` notes what has passed
through in a run; `Accounted` says how the state answers to it at every step, and `output_captured`
what the log has got of each stream, during the run and at its end. -/

namespace Overseer.Supervision

open Log (Chunk Emission Stream Writer defaultLimit lineBytes linesOf newline ofStream terminated
  unended)
open Programs (ExitStatus Performance)

/-! ## What passes through -/

/-- What has passed through since the start of a run. -/
structure Ledger where
  /-- What was written to each pipe. -/
  written : Stream → List UInt8 := fun _ => []
  /-- The chunks that the readers have taken and sent. -/
  sent : List (Stream × ByteArray) := []
  /-- The chunks that were appended to the log, each with the clock at that. -/
  received : List Chunk := []

/-- What an action adds in a state in which it can happen. -/
def Ledger.note (k : Ledger) (clock : Nat → Timestamp) (s : State) : Action → Ledger
  | .write stream bytes =>
    { k with written := fun x => k.written x ++ if x = stream then bytes.data.toList else [] }
  | .read stream count =>
    { k with sent := k.sent ++ [(stream, (s.pipe stream).unread.extract 0 count)] }
  | .receive =>
    { k with
      received := k.received ++ (s.channel.take 1).map fun (stream, chunk) =>
        ⟨stream, chunk, clock⟩ }
  | _ => k

/-- A run of steps has led from a state to another, and this is its ledger. -/
inductive Traced (s₀ : State) : Ledger → State → Prop
  | start : Traced s₀ {} s₀
  | step {k : Ledger} {s u : State} {a : Action} (clock : Nat → Timestamp) :
      Traced s₀ k s → step clock s a = some u → Traced s₀ (k.note clock s a) u

/-- What an action writes to the pipe of a stream. -/
def output (x : Stream) : Action → List UInt8
  | .write stream bytes => if x = stream then bytes.data.toList else []
  | _ => []

theorem note_written (k : Ledger) (clock : Nat → Timestamp) (s : State) (a : Action) (x : Stream) :
    (k.note clock s a).written x = k.written x ++ output x a := by
  cases a <;> simp [Ledger.note, output]

theorem Traced.run {s₀ s u : State} {k : Ledger} {now : Timestamp} {actions : List Action}
    (h : Traced s₀ k s) (hrun : run now s actions = some u) :
    ∃ k', Traced s₀ k' u ∧ ∀ x, k'.written x = k.written x ++ actions.flatMap (output x) := by
  induction actions generalizing s k with
  | nil =>
    cases hrun
    exact ⟨k, h, fun x => (List.append_nil _).symm⟩
  | cons a actions ih =>
    rw [Supervision.run, List.foldlM_cons] at hrun
    obtain ⟨v, hstep, hrest⟩ := Option.bind_eq_some_iff.mp hrun
    obtain ⟨k', htraced, hwritten⟩ := ih (.step _ h hstep) hrest
    refine ⟨k', htraced, fun x => ?_⟩
    rw [hwritten, note_written, List.append_assoc, List.flatMap_cons]

/-- The supervision of a performance is such a run. -/
theorem supervise_traced {p : Performance} {pid : Nat} {now : Timestamp} {o : Options}
    {outcome : Outcome} (h : supervise p pid now o = some outcome) :
    ∃ k s, Traced (.start p.tree o.logPath o.maxBytes o.maxFiles) k s ∧
      (∀ x, k.written x = (actions p pid now o).flatMap (output x)) ∧ s.tree = outcome.tree ∧
      s.phase = .closed outcome.status outcome.timedOut := by
  obtain ⟨s, hrun, hs⟩ := Option.bind_eq_some_iff.mp h
  obtain ⟨k, htraced, hwritten⟩ := Traced.start.run hrun
  split at hs
  · next hphase =>
    cases hs
    exact ⟨k, s, htraced, hwritten, rfl, hphase⟩
  · cases hs

/-- The bytes of one stream in some chunks. -/
def carried (stream : Stream) (parcels : List (Stream × ByteArray)) : List UInt8 :=
  (lineBytes ((parcels.filter (·.1 = stream)).map (·.2))).flatten

theorem carried_append (stream : Stream) (x y : List (Stream × ByteArray)) :
    carried stream (x ++ y) = carried stream x ++ carried stream y := by
  simp [carried, lineBytes]

theorem carried_singleton (stream x : Stream) (bytes : ByteArray) :
    carried x [(stream, bytes)] = if x = stream then bytes.data.toList else [] := by
  by_cases h : stream = x
  · simp [carried, lineBytes, h]
  · simp [carried, lineBytes, h, Ne.symm h]

/-- A chunk without the clock. -/
def parcel (c : Chunk) : Stream × ByteArray := (c.stream, c.bytes)

theorem carried_parcels (stream : Stream) (chunks : List Chunk) :
    carried stream (chunks.map parcel) = (lineBytes (ofStream stream chunks)).flatten := by
  rw [carried, List.filter_map, List.map_map]
  rfl

/-! ## What holds at every step -/

/-- How a state answers to the ledger of the run that led to it. -/
structure Accounted (s₀ : State) (k : Ledger) (s : State) : Prop where
  fifo : k.received.map parcel ++ s.channel = k.sent
  chunked : ∀ c ∈ k.sent, 0 < c.2.size ∧ c.2.size ≤ maxChunk
  taken : ∀ x, carried x k.sent ++ (s.pipe x).unread.data.toList = k.written x
  ended : ∀ x, (s.pipe x).isRead = false →
    (s.pipe x).isOpen = false ∧ (s.pipe x).unread.size = 0
  logged : isClosed s.phase = false →
    s₀.writer.appendAll s₀.tree k.received = (s.tree, s.writer)
  closed : ∀ ending timedOut, s.phase = .closed ending timedOut →
    (∃ clock, (s₀.writer.session s₀.tree k.received clock).tree = s.tree ∧
      (s₀.writer.session s₀.tree k.received clock).writer = s.writer) ∧
    (timedOut = false → s.channel = [] ∧ ∀ x, (s.pipe x).isRead = false)

theorem accounted_start (t : FileTree) (path : String) (maxBytes maxFiles : Nat) :
    Accounted (.start t path maxBytes maxFiles) {} (.start t path maxBytes maxFiles) where
  fifo := rfl
  chunked := by simp
  taken x := by cases x <;> rfl
  ended x h := by cases x <;> cases h
  logged _ := rfl
  closed _ _ h := by cases h

namespace Accounted

variable {s₀ s u : State} {k : Ledger} {clock : Nat → Timestamp} {a : Action}

/-- A change of one pipe. -/
theorem setPipe (h : Accounted s₀ k s) {p : Pipe} {stream : Stream} {written : Stream → List UInt8}
    (htaken : ∀ x, carried x k.sent ++ ((s.setPipe p stream).pipe x).unread.data.toList = written x)
    (hended : p.isRead = false → p.isOpen = false ∧ p.unread.size = 0)
    (hread : (s.pipe stream).isRead = false → p.isRead = false) :
    Accounted s₀ { k with written } (s.setPipe p stream) where
  fifo := by simpa using h.fifo
  chunked := h.chunked
  taken := htaken
  ended x hx := by
    rw [State.pipe_setPipe] at hx ⊢
    split at hx
    · rw [if_pos ‹_›]
      exact hended hx
    · rw [if_neg ‹_›]
      exact h.ended x hx
  logged hopen := by simpa using h.logged (by simpa using hopen)
  closed ending timedOut hphase := by
    obtain ⟨hsession, hdone⟩ := h.closed ending timedOut (by simpa using hphase)
    refine ⟨by simpa using hsession, fun htime => ?_⟩
    obtain ⟨hchannel, hall⟩ := hdone htime
    refine ⟨by simpa using hchannel, fun x => ?_⟩
    rw [State.pipe_setPipe]
    split
    · exact hread (hall stream)
    · exact hall x

theorem write (h : Accounted s₀ k s) {stream : Stream} {bytes : ByteArray}
    (hopen : (s.pipe stream).isOpen = true) :
    Accounted s₀ (k.note clock s (.write stream bytes))
      (s.setPipe { s.pipe stream with unread := (s.pipe stream).unread ++ bytes } stream) := by
  have hread : (s.pipe stream).isRead ≠ false := by
    intro hread
    rw [(h.ended stream hread).1] at hopen
    cases hopen
  refine h.setPipe (fun x => ?_) (fun hx => absurd hx hread) (fun hx => absurd hx hread)
  rw [← h.taken x, State.pipe_setPipe]
  by_cases hx : x = stream
  · subst hx
    simp [ByteArray.data_append]
  · simp [hx]

theorem hangUp (h : Accounted s₀ k s) (stream : Stream) :
    Accounted s₀ k (s.setPipe { s.pipe stream with isOpen := false } stream) := by
  refine h.setPipe (fun x => ?_) (fun hx => ⟨rfl, (h.ended stream hx).2⟩) id
  rw [← h.taken x, State.pipe_setPipe]
  by_cases hx : x = stream
  · subst hx
    simp
  · simp [hx]

theorem endOfPipe (h : Accounted s₀ k s) {stream : Stream}
    (hclosed : (s.pipe stream).isOpen = false) (hempty : (s.pipe stream).unread.size = 0) :
    Accounted s₀ k (s.setPipe { s.pipe stream with isRead := false } stream) := by
  refine h.setPipe (fun x => ?_) (fun _ => ⟨hclosed, hempty⟩) fun _ => rfl
  rw [← h.taken x, State.pipe_setPipe]
  by_cases hx : x = stream
  · subst hx
    simp
  · simp [hx]

/-- What a reader takes off the front of its pipe goes to the end of the channel. -/
theorem read (h : Accounted s₀ k s) {stream : Stream} {count : Nat}
    (hread : (s.pipe stream).isRead = true) (hsome : 0 < count) (hchunk : count ≤ maxChunk)
    (hthere : count ≤ (s.pipe stream).unread.size) (hopen : isClosed s.phase = false) :
    Accounted s₀ (k.note clock s (.read stream count))
      { s.setPipe { s.pipe stream with
            unread := (s.pipe stream).unread.extract count (s.pipe stream).unread.size } stream with
        channel := s.channel ++ [(stream, (s.pipe stream).unread.extract 0 count)] } where
  fifo := by
    show k.received.map parcel ++ (s.channel ++ [_]) = k.sent ++ [_]
    rw [← List.append_assoc, h.fifo]
  chunked c hc := by
    rcases List.mem_append.mp hc with hc | hc
    · exact h.chunked c hc
    · rw [List.mem_singleton.mp hc, ByteArray.size_extract]
      omega
  taken x := by
    show carried x (k.sent ++ [_]) ++ ((s.setPipe _ stream).pipe x).unread.data.toList = k.written x
    rw [carried_append, carried_singleton, ← h.taken x, State.pipe_setPipe, List.append_assoc]
    by_cases hx : x = stream
    · subst hx
      have hsplit : ((s.pipe x).unread.extract 0 count).data.toList ++
          ((s.pipe x).unread.extract count (s.pipe x).unread.size).data.toList =
            (s.pipe x).unread.data.toList := by
        have hrest : (s.pipe x).unread.data.toList.length = (s.pipe x).unread.size := rfl
        simp [List.take_of_length_le, hrest]
      rw [if_pos rfl, if_pos rfl, hsplit]
    · simp [hx]
  ended x hx := by
    have hpipe := s.pipe_setPipe { s.pipe stream with
      unread := (s.pipe stream).unread.extract count (s.pipe stream).unread.size } stream x
    show ((s.setPipe _ stream).pipe x).isOpen = false ∧
      ((s.setPipe _ stream).pipe x).unread.size = 0
    have hx : ((s.setPipe _ stream).pipe x).isRead = false := hx
    rw [hpipe] at hx ⊢
    split at hx
    · rw [hread] at hx
      cases hx
    · rw [if_neg ‹_›]
      exact h.ended x hx
  logged _ := by
    show s₀.writer.appendAll s₀.tree k.received =
      ((s.setPipe _ stream).tree, (s.setPipe _ stream).writer)
    rw [State.setPipe_tree, State.setPipe_writer]
    exact h.logged hopen
  closed ending timedOut hphase := by
    have hphase : (s.setPipe _ stream).phase = .closed ending timedOut := hphase
    rw [State.setPipe_phase] at hphase
    rw [hphase] at hopen
    cases hopen

/-- What is received was the oldest in the channel. -/
theorem receive (h : Accounted s₀ k s) {stream : Stream} {chunk : ByteArray}
    {rest : List (Stream × ByteArray)} (hchannel : s.channel = (stream, chunk) :: rest)
    (hopen : isClosed s.phase = false) :
    Accounted s₀ (k.note clock s .receive)
      ({ s with channel := rest }.append clock stream chunk) := by
  have hreceived : (k.note clock s .receive).received = k.received ++ [⟨stream, chunk, clock⟩] := by
    rw [Ledger.note, hchannel]
    rfl
  have hpipe : ∀ x, ({ s with channel := rest }.append clock stream chunk).pipe x = s.pipe x :=
    State.pipe_congr rfl rfl
  refine ⟨?_, h.chunked, fun x => ?_, fun x => ?_, fun _ => ?_, fun ending timedOut hphase => ?_⟩
  · rw [hreceived, List.map_append, List.append_assoc]
    show _ ++ ((stream, chunk) :: rest) = k.sent
    rw [← hchannel, h.fifo]
  · rw [hpipe]
    exact h.taken x
  · rw [hpipe]
    exact h.ended x
  · rw [hreceived, Writer.appendAll_append, h.logged hopen]
    rfl
  · have hphase : s.phase = .closed ending timedOut := hphase
    rw [hphase] at hopen
    cases hopen

theorem close (h : Accounted s₀ k s) {ending : ExitStatus} (hdraining : s.phase = .draining ending)
    (timedOut : Bool)
    (hdone : timedOut = false → s.channel = [] ∧ ∀ x, (s.pipe x).isRead = false) :
    Accounted s₀ k (s.close (lastClock clock) ending timedOut) := by
  have hpipe : ∀ x, (s.close (lastClock clock) ending timedOut).pipe x = s.pipe x :=
    State.pipe_congr rfl rfl
  have hlogged := h.logged (by rw [hdraining]; rfl)
  refine ⟨h.fifo, h.chunked, fun x => ?_, fun x => ?_, fun hopen => ?_, fun _ _ hphase => ?_⟩
  · rw [hpipe]
    exact h.taken x
  · rw [hpipe]
    exact h.ended x
  · cases hopen
  · cases hphase
    refine ⟨⟨lastClock clock, ?_⟩, fun htime => ⟨(hdone htime).1, fun x => ?_⟩⟩
    · rw [Writer.session, hlogged]
      exact ⟨rfl, rfl⟩
    · rw [hpipe]
      exact (hdone htime).2 x

/-- Every step keeps the account. -/
theorem step (h : Accounted s₀ k s) (hstep : Transition clock s a u) :
    Accounted s₀ (k.note clock s a) u := by
  cases hstep with
  | write hopen => exact h.write hopen
  | hangUp => exact h.hangUp _
  | read hread hsome hchunk hthere hopen => exact h.read hread hsome hchunk hthere hopen
  | endOfPipe hclosed hempty => exact h.endOfPipe hclosed hempty
  | receive hchannel hopen => exact h.receive hchannel hopen
  | poll => exact { h with }
  | emptyPoll => exact h
  | exit hrunning =>
    exact { h with
      logged := fun _ => h.logged (by rw [hrunning]; rfl)
      closed := fun _ _ hphase => by cases hphase }
  | timeout hdraining => exact h.close hdraining true fun htime => by cases htime
  | finish hdraining hchannel hread => exact h.close hdraining false fun _ => ⟨hchannel, hread⟩

end Accounted

/-- Every state that a run leads to answers to the ledger of the run. -/
theorem Traced.accounted {t : FileTree} {path : String} {maxBytes maxFiles : Nat} {k : Ledger}
    {s : State} (h : Traced (.start t path maxBytes maxFiles) k s) :
    Accounted (.start t path maxBytes maxFiles) k s := by
  induction h with
  | start => exact accounted_start t path maxBytes maxFiles
  | step clock _ hstep ih => exact ih.step (transition_of_step hstep)

/-! ## What the log has got -/

/-- The bytes of a stream that were appended to the log. -/
def Ledger.appended (k : Ledger) (stream : Stream) : List UInt8 :=
  (lineBytes (ofStream stream k.received)).flatten

namespace Accounted

variable {s₀ s : State} {k : Ledger}

theorem appended_channel (h : Accounted s₀ k s) (x : Stream) :
    k.appended x ++ carried x s.channel = carried x k.sent := by
  rw [Ledger.appended, ← carried_parcels, ← carried_append, h.fifo]

theorem appended_prefix (h : Accounted s₀ k s) (x : Stream) : k.appended x <+: k.written x := by
  rw [← h.taken x, ← h.appended_channel x, List.append_assoc]
  exact List.prefix_append _ _

/-- Without the timeout all that was written has been appended. -/
theorem appended_all (h : Accounted s₀ k s) {ending : ExitStatus}
    (hphase : s.phase = .closed ending false) (x : Stream) : k.appended x = k.written x := by
  obtain ⟨-, hdone⟩ := h.closed ending false hphase
  obtain ⟨hchannel, hread⟩ := hdone rfl
  have hunread : (s.pipe x).unread.data.toList = [] :=
    List.eq_nil_of_length_eq_zero (h.ended x (hread x)).2
  rw [← h.taken x, ← h.appended_channel x, hchannel, hunread, List.append_nil]
  exact (List.append_nil _).symm

end Accounted

/-- At every step of a run, the bytes of a stream that were appended to the log, with those in the
channel, are the bytes that its reader has taken, in order, and those with the unread ones are the
bytes written. Polls and the program's end leave the log alone. When the log is closed it has got
the records of what line buffers give for the bytes appended: for all that was written, or if time
was up for a beginning of it. A log that could not be opened gets nothing. -/
theorem output_captured {t : FileTree} {path : String} {maxBytes maxFiles : Nat} {k : Ledger}
    {s : State} (h : Traced (.start t path maxBytes maxFiles) k s) :
    (∀ x, k.appended x ++ carried x s.channel = carried x k.sent ∧
      carried x k.sent ++ (s.pipe x).unread.data.toList = k.written x) ∧
    (∀ c ∈ k.sent, 0 < c.2.size ∧ c.2.size ≤ maxChunk) ∧
    (isClosed s.phase = false →
      (Writer.openAt t path maxBytes maxFiles).writer.appendAll
        (Writer.openAt t path maxBytes maxFiles).tree k.received = (s.tree, s.writer)) ∧
    (∀ clock u, (∃ summary, step clock s (.tick summary) = some u) ∨
        (∃ ending, step clock s (.exit ending) = some u) →
      u.tree = s.tree ∧ u.writer = s.writer) ∧
    ∀ ending timedOut, s.phase = .closed ending timedOut →
      (∀ x, k.appended x <+: k.written x ∧ (timedOut = false → k.appended x = k.written x)) ∧
      (∀ t' log, Log.RotatingLog.openAt t path maxBytes maxFiles = (t', .ok log) →
        ∃ es : List Emission, Writer.Received log t' (es.map Emission.record) s.tree s.writer ∧
          ∀ x, linesOf x es = Log.LineBuffer.new.drain (ofStream x k.received) ∧
            ((∀ run, run <:+: k.appended x → newline ∉ run → run.length ≤ defaultLimit) →
              lineBytes (linesOf x es) = terminated (k.appended x) ++
                if unended (k.appended x) = [] then [] else [unended (k.appended x)])) ∧
      ∀ t' e, Log.RotatingLog.openAt t path maxBytes maxFiles = (t', .error e) → s.tree = t' := by
  have hall := h.accounted
  refine ⟨fun x => ⟨hall.appended_channel x, hall.taken x⟩, hall.chunked, hall.logged, ?_, ?_⟩
  · rintro clock u (⟨summary, hstep⟩ | ⟨ending, hstep⟩)
    · exact transition_log (transition_of_step hstep) (by simp) (by simp) (by simp)
    · exact transition_log (transition_of_step hstep) (by simp) (by simp) (by simp)
  · intro ending timedOut hphase
    obtain ⟨⟨clock, htree, hwriter⟩, -⟩ := hall.closed ending timedOut hphase
    refine ⟨fun x => ⟨hall.appended_prefix x, ?_⟩, fun t' log hopen => ?_, fun t' e hopen => ?_⟩
    · rintro rfl
      exact hall.appended_all hphase x
    · have hfresh := Writer.openAt_fresh hopen
      have hreceived := Writer.session_received (w := Writer.fresh path log false) rfl t' k.received
        clock
      rw [State.start, hfresh] at htree hwriter
      dsimp only at htree hwriter
      rw [htree, hwriter, Writer.fresh_buffer] at hreceived
      refine ⟨_, hreceived, fun x => ?_⟩
      have hlines := Log.Buffers.new.linesOf_emitted k.received clock x
      refine ⟨hlines, fun hshort => ?_⟩
      rw [hlines]
      exact Log.LineBuffer.drain_lines (b := Log.LineBuffer.new) List.not_mem_nil _ hshort
    · have hnone : Writer.openAt t path maxBytes maxFiles =
          ⟨t', ⟨path, none, .new, .new, false⟩, [.logUnopened path]⟩ := by
        rw [Writer.openAt, hopen]
      rw [State.start, hnone] at htree
      exact htree.symm.trans (Writer.session_discards rfl t' k.received clock)

/-- A program ends while some of its output is unread and some is in the channel. -/
def raced : List Action :=
  [.write .stdout "one\ntwo".toUTF8, .read .stdout 4, .exit (.code 0), .receive, .read .stdout 3,
    .hangUp .stdout, .hangUp .stderr, .endOfPipe .stdout, .endOfPipe .stderr, .receive, .finish]

theorem output_captured_raced :
    ∃ k s, Traced (.start FileTree.empty "app.log" 100 1) k s ∧
      s.phase = .closed (.code 0) false ∧
      ∃ t log, Log.RotatingLog.openAt FileTree.empty "app.log" 100 1 = (t, .ok log) ∧
        ∃ es : List Emission, Writer.Received log t (es.map Emission.record) s.tree s.writer ∧
          lineBytes (linesOf .stdout es) = lineBytes ["one".toUTF8, "two".toUTF8] := by
  have hname := Log.Shelf.reached_of_name FileTree.sound_empty "app.log"
    ⟨by decide, by decide, by decide⟩ (by decide) (by decide) (by decide)
  have hthere : FileTree.empty.resolve false "app.log" = .ok (.absent ["work"] "app.log") :=
    (hname.resolve_slot 0 false (by simp)).trans (if_pos hname.fits)
  have hready := (Log.Ready.of_empty FileTree.sound_empty hthere rfl (by decide) 1).1
  obtain ⟨t, log, hopen⟩ := hready.exists_opened (by decide) 100 1
  have hrun : run ⟨0, 0⟩ (.start FileTree.empty "app.log" 100 1) raced = some _ := rfl
  obtain ⟨k, htraced, hwritten⟩ := Traced.start.run hrun
  obtain ⟨-, -, -, -, hclosed⟩ := output_captured htraced
  obtain ⟨hall, hlogged, -⟩ := hclosed (.code 0) false rfl
  obtain ⟨es, hreceived, hlines⟩ := hlogged t log hopen
  refine ⟨k, _, htraced, rfl, t, log, hopen, es, hreceived, ?_⟩
  have happended : k.appended .stdout = "one\ntwo".toUTF8.data.toList :=
    ((hall .stdout).2 rfl).trans (hwritten .stdout)
  rw [(hlines .stdout).2, happended]
  · rfl
  · intro run hinfix _
    rw [happended] at hinfix
    exact hinfix.length_le.trans (by decide)

end Overseer.Supervision
