import Overseer.Proofs.Log.Session

/-! What a writer reports of failed writes. `warnings_life_le`: from its opening to its end it warns
once at most. -/

namespace Overseer.Log

/-- How many of the events tell of a record that could not be written. -/
def warnings (events : List Event) : Nat :=
  events.countP fun
    | .recordFailed _ => true
    | _ => false

theorem warnings_append (x y : List Event) : warnings (x ++ y) = warnings x + warnings y :=
  List.countP_append

namespace Writer

/-- With the warnings given before, a writer has given one if it has noted a failure, else none. -/
def Warned (before : Nat) (p : Progress) : Prop :=
  before + warnings p.events = p.writer.failed.toNat

variable {before : Nat} {p : Progress}

theorem warned_start (w : Writer) (t : FileTree) : Warned w.failed.toNat ⟨t, w, []⟩ := rfl

theorem Warned.emit (h : Warned before p) (now : Timestamp) (stream : Stream) (line : ByteArray) :
    Warned before (emit now stream line p) := by
  obtain ⟨t, w, events⟩ := p
  have hbefore : before + warnings events = w.failed.toNat := h
  -- A rotation is reported too, but is no warning.
  have hrotated : ∀ o : RotatingLog.Outcome,
      warnings (if o.rotated then events ++ [.logRotated o.log.path] else events) =
        warnings events := by
    intro o
    split
    · rw [warnings_append]
      rfl
    · rfl
  unfold Writer.emit Warned
  simp only
  split
  · exact hbefore
  · split
    · rw [hrotated]
      exact hbefore
    · cases hfailed : w.failed with
      | true =>
        rw [if_pos rfl, hrotated, hbefore, hfailed]
      | false =>
        have hone : warnings [Event.recordFailed w.path] = 1 := rfl
        rw [if_neg Bool.false_ne_true, warnings_append, hrotated, hone, ← Nat.add_assoc, hbefore,
          hfailed]
        rfl

theorem Warned.emitAll (h : Warned before p) (clock : Nat → Timestamp) (stream : Stream)
    (lines : List ByteArray) : Warned before (emitAll clock stream lines p) := by
  unfold Writer.emitAll
  induction lines.zipIdx generalizing p with
  | nil => exact h
  | cons q indexed ih => exact ih (h.emit (clock q.2) stream q.1)

theorem failed_setBuffer (w : Writer) (b : LineBuffer) (stream : Stream) :
    (w.setBuffer b stream).failed = w.failed := by
  cases stream
  · rfl
  · rfl

theorem append_warned (w : Writer) (t : FileTree) (clock : Nat → Timestamp) (stream : Stream)
    (chunk : ByteArray) : Warned w.failed.toNat (w.append t clock stream chunk) := by
  unfold Writer.append
  split
  · have hstart := warned_start (w.setBuffer ((w.buffer stream).push chunk).1 stream) t
    rw [failed_setBuffer] at hstart
    exact hstart.emitAll clock stream _
  · exact w.warned_start t

theorem Warned.flush (h : Warned before p) (clock : Nat → Timestamp) (stream : Stream) :
    Warned before (flush clock stream p) := by
  refine Warned.emitAll ?_ clock stream _
  show before + warnings p.events = _
  rw [failed_setBuffer]
  exact h

theorem close_warned (w : Writer) (t : FileTree) (clock : Stream → Timestamp) :
    Warned w.failed.toNat (w.close t clock) :=
  ((w.warned_start t).flush (fun _ => clock .stdout) .stdout).flush (fun _ => clock .stderr) .stderr

/-- All that a writer reports while it takes chunks. -/
def reports (w : Writer) (t : FileTree) : List Chunk → List Event
  | [] => []
  | c :: chunks =>
    let p := w.append t c.clock c.stream c.bytes
    p.events ++ p.writer.reports p.tree chunks

theorem reports_warned (w : Writer) (t : FileTree) (chunks : List Chunk) :
    w.failed.toNat + warnings (w.reports t chunks) = (w.appendAll t chunks).2.failed.toNat := by
  induction chunks generalizing w t with
  | nil => rfl
  | cons c chunks ih =>
    have hfirst : w.failed.toNat + warnings (w.append t c.clock c.stream c.bytes).events = _ :=
      w.append_warned t c.clock c.stream c.bytes
    rw [reports, warnings_append, ← Nat.add_assoc, hfirst]
    exact ih _ _

/-- All that a writer reports from its opening to its end. -/
def lifeReports (t : FileTree) (path : String) (maxBytes maxFiles : Nat) (chunks : List Chunk)
    (clock : Stream → Timestamp) : List Event :=
  let opened := openAt t path maxBytes maxFiles
  opened.events ++ opened.writer.reports opened.tree chunks ++
    (capture t path maxBytes maxFiles chunks clock).events

/-- A writer warns of a failed write once at most. -/
theorem warnings_life_le (t : FileTree) (path : String) (maxBytes maxFiles : Nat)
    (chunks : List Chunk) (clock : Stream → Timestamp) :
    warnings (lifeReports t path maxBytes maxFiles chunks clock) ≤ 1 := by
  have hopened : (openAt t path maxBytes maxFiles).writer.failed = false ∧
      warnings (openAt t path maxBytes maxFiles).events = 0 := by
    unfold Writer.openAt
    split
    · exact ⟨rfl, rfl⟩
    · exact ⟨rfl, rfl⟩
  have hchunks := reports_warned (openAt t path maxBytes maxFiles).writer
    (openAt t path maxBytes maxFiles).tree chunks
  have hclose : _ + warnings (capture t path maxBytes maxFiles chunks clock).events =
      (capture t path maxBytes maxFiles chunks clock).writer.failed.toNat :=
    close_warned _ _ clock
  have hone := Bool.toNat_le (capture t path maxBytes maxFiles chunks clock).writer.failed
  rw [hopened.1, Bool.toNat_false] at hchunks
  simp only [lifeReports, warnings_append, hopened.2]
  omega

end Writer

end Overseer.Log
