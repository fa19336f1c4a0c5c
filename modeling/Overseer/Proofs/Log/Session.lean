import Overseer.Proofs.Log.Lines

/-! A writer from its first chunk to its end. `session_received`: the log gets the records of what
the two line buffers give out, in that order, whatever becomes of each write. -/

namespace Overseer.Log

namespace RotatingLog

/-- Writes records in turn. -/
def writeAll (log : RotatingLog) (t : FileTree) : List ByteArray → FileTree × RotatingLog
  | [] => (t, log)
  | r :: rest => writeAll (log.write t r).log (log.write t r).tree rest

theorem writeAll_append (log : RotatingLog) (t : FileTree) (x y : List ByteArray) :
    log.writeAll t (x ++ y) = (log.writeAll t x).2.writeAll (log.writeAll t x).1 y := by
  induction x generalizing log t with
  | nil => rfl
  | cons r x ih => exact ih (log.write t r).log (log.write t r).tree

end RotatingLog

/-- A line given out by the buffer of a stream, and the time that its record bears. -/
structure Emission where
  stream : Stream
  line : ByteArray
  now : Timestamp

def Emission.record (e : Emission) : ByteArray := Log.record e.now e.stream e.line

/-- Lines of one stream with the times the clock tells for them. -/
def emissions (clock : Nat → Timestamp) (stream : Stream) (lines : List ByteArray) :
    List Emission :=
  lines.zipIdx.map fun (line, i) => ⟨stream, line, clock i⟩

/-- Bytes of one stream, and the clock for the lines that they complete. -/
structure Chunk where
  stream : Stream
  bytes : ByteArray
  clock : Nat → Timestamp

/-! ## What the buffers give out -/

/-- A line buffer for each stream. -/
abbrev Buffers := Stream → LineBuffer

namespace Buffers

def new : Buffers := fun _ => .new

/-- What a chunk completes. -/
def group (b : Buffers) (c : Chunk) : List Emission :=
  emissions c.clock c.stream ((b c.stream).push c.bytes).2

/-- The buffers after a chunk. -/
def take (b : Buffers) (c : Chunk) : Buffers := fun stream =>
  if stream = c.stream then ((b c.stream).push c.bytes).1 else b stream

/-- What each of the chunks completes. -/
def groups (b : Buffers) : List Chunk → List (List Emission)
  | [] => []
  | c :: chunks => b.group c :: (b.take c).groups chunks

/-- What is left of one stream. -/
def remaining (b : Buffers) (clock : Stream → Timestamp) (stream : Stream) : List Emission :=
  emissions (fun _ => clock stream) stream (b stream).takeRemaining.2.toList

/-- What is left of both streams, the standard output first. -/
def closing (b : Buffers) (clock : Stream → Timestamp) : List Emission :=
  b.remaining clock .stdout ++ b.remaining clock .stderr

/-- All that is given out from the first chunk to the end. -/
def emitted (b : Buffers) (chunks : List Chunk) (clock : Stream → Timestamp) : List Emission :=
  (b.groups chunks).flatten ++ Buffers.closing (chunks.foldl take b) clock

end Buffers

namespace Writer

/-- A writer whose log is open and whose buffers are empty. -/
def fresh (path : String) (log : RotatingLog) (failed : Bool) : Writer :=
  ⟨path, some log, .new, .new, failed⟩

theorem fresh_buffer (path : String) (log : RotatingLog) (failed : Bool) :
    (fresh path log failed).buffer = Buffers.new := by
  funext stream
  cases stream <;> rfl

theorem openAt_fresh {t t' : FileTree} {path : String} {maxBytes maxFiles : Nat}
    {log : RotatingLog} (h : RotatingLog.openAt t path maxBytes maxFiles = (t', .ok log)) :
    openAt t path maxBytes maxFiles = ⟨t', fresh path log false, []⟩ := by
  rw [openAt, h]
  rfl

/-- Takes chunks in turn. -/
def appendAll (w : Writer) (t : FileTree) : List Chunk → FileTree × Writer
  | [] => (t, w)
  | c :: chunks =>
    let p := w.append t c.clock c.stream c.bytes
    p.writer.appendAll p.tree chunks

theorem appendAll_append (w : Writer) (t : FileTree) (x y : List Chunk) :
    w.appendAll t (x ++ y) = (w.appendAll t x).2.appendAll (w.appendAll t x).1 y := by
  induction x generalizing w t with
  | nil => rfl
  | cons c x ih => exact ih _ _

/-- Takes chunks in turn and then closes the writer. -/
def session (w : Writer) (t : FileTree) (chunks : List Chunk) (clock : Stream → Timestamp) :
    Progress :=
  (w.appendAll t chunks).2.close (w.appendAll t chunks).1 clock

/-- Opens a writer, gives it chunks and closes it. -/
def capture (t : FileTree) (path : String) (maxBytes maxFiles : Nat) (chunks : List Chunk)
    (clock : Stream → Timestamp) : Progress :=
  (openAt t path maxBytes maxFiles).writer.session (openAt t path maxBytes maxFiles).tree chunks
    clock

/-! ## What the log gets -/

/-- The log has got these records since it was `log` in the tree `t`. -/
structure Received (log : RotatingLog) (t : FileTree) (records : List ByteArray) (t' : FileTree)
    (w : Writer) : Prop where
  tree : t' = (log.writeAll t records).1
  log : w.log = some (log.writeAll t records).2

variable {log : RotatingLog} {t t' : FileTree} {w : Writer} {records : List ByteArray}

theorem buffer_setBuffer (w : Writer) (b : LineBuffer) (stream : Stream) :
    (w.setBuffer b stream).buffer = fun s => if s = stream then b else w.buffer s := by
  funext s
  cases stream <;> cases s <;> rfl

theorem Received.setBuffer (h : Received log t records t' w) (b : LineBuffer) (stream : Stream) :
    Received log t records t' (w.setBuffer b stream) := by
  cases stream
  · exact ⟨h.tree, h.log⟩
  · exact ⟨h.tree, h.log⟩

theorem Received.emit (h : Received log t records t' w) (now : Timestamp) (stream : Stream)
    (line : ByteArray) (events : List Event) :
    Received log t (records ++ [record now stream line]) (emit now stream line ⟨t', w, events⟩).tree
        (emit now stream line ⟨t', w, events⟩).writer ∧
      (emit now stream line ⟨t', w, events⟩).writer.buffer = w.buffer := by
  have hone : log.writeAll t (records ++ [record now stream line]) =
      (((log.writeAll t records).2.write t' (record now stream line)).tree,
        ((log.writeAll t records).2.write t' (record now stream line)).log) := by
    rw [RotatingLog.writeAll_append, h.tree]
    rfl
  have hbuffer : ∀ (log' : Option RotatingLog) (failed : Bool),
      ({ w with log := log', failed } : Writer).buffer = w.buffer := by
    intro log' failed
    funext s
    cases s <;> rfl
  unfold Writer.emit
  simp only [h.log]
  split
  · exact ⟨⟨by rw [hone], by rw [hone]⟩, hbuffer _ _⟩
  · exact ⟨⟨by rw [hone], by rw [hone]⟩, hbuffer _ _⟩

theorem Received.emitAll (h : Received log t records t' w) (clock : Nat → Timestamp)
    (stream : Stream) (lines : List ByteArray) (events : List Event) :
    Received log t (records ++ (emissions clock stream lines).map Emission.record)
        (emitAll clock stream lines ⟨t', w, events⟩).tree
        (emitAll clock stream lines ⟨t', w, events⟩).writer ∧
      (emitAll clock stream lines ⟨t', w, events⟩).writer.buffer = w.buffer := by
  unfold Writer.emitAll emissions
  generalize lines.zipIdx = indexed
  induction indexed generalizing records t' w events with
  | nil => exact ⟨by simpa using h, rfl⟩
  | cons p indexed ih =>
    obtain ⟨line, i⟩ := p
    obtain ⟨hfirst, hbuffer⟩ := h.emit (clock i) stream line events
    obtain ⟨hrest, hbuffer'⟩ := ih hfirst (Writer.emit (clock i) stream line ⟨t', w, events⟩).events
    rw [List.append_assoc] at hrest
    exact ⟨hrest, hbuffer'.trans hbuffer⟩

theorem Received.append (h : Received log t records t' w) (c : Chunk) :
    Received log t (records ++ (Buffers.group w.buffer c).map Emission.record)
        (w.append t' c.clock c.stream c.bytes).tree
        (w.append t' c.clock c.stream c.bytes).writer ∧
      (w.append t' c.clock c.stream c.bytes).writer.buffer = Buffers.take w.buffer c := by
  have hactive : w.isActive = true := by rw [isActive, h.log]; rfl
  unfold Writer.append
  rw [if_pos hactive]
  obtain ⟨hreceived, hbuffer⟩ := (h.setBuffer ((w.buffer c.stream).push c.bytes).1 c.stream).emitAll
    c.clock c.stream ((w.buffer c.stream).push c.bytes).2 []
  exact ⟨hreceived, hbuffer.trans (w.buffer_setBuffer _ _)⟩

theorem Received.appendAll (h : Received log t records t' w) (chunks : List Chunk) :
    Received log t (records ++ (Buffers.groups w.buffer chunks).flatten.map Emission.record)
        (w.appendAll t' chunks).1 (w.appendAll t' chunks).2 ∧
      (w.appendAll t' chunks).2.buffer = chunks.foldl Buffers.take w.buffer := by
  induction chunks generalizing records t' w with
  | nil =>
    refine ⟨?_, rfl⟩
    simp only [Buffers.groups, List.flatten_nil, List.map_nil, List.append_nil]
    exact h
  | cons c chunks ih =>
    obtain ⟨hfirst, hbuffer⟩ := h.append c
    obtain ⟨hrest, hbuffer'⟩ := ih hfirst
    rw [hbuffer] at hrest hbuffer'
    refine ⟨?_, hbuffer'⟩
    rw [Buffers.groups, List.flatten_cons, List.map_append, ← List.append_assoc]
    exact hrest

theorem Received.flush (h : Received log t records t' w) (clock : Stream → Timestamp)
    (stream : Stream) (events : List Event) :
    Received log t (records ++ (Buffers.remaining w.buffer clock stream).map Emission.record)
        (flush (fun _ => clock stream) stream ⟨t', w, events⟩).tree
        (flush (fun _ => clock stream) stream ⟨t', w, events⟩).writer ∧
      ∀ s, s ≠ stream →
        (flush (fun _ => clock stream) stream ⟨t', w, events⟩).writer.buffer s = w.buffer s := by
  obtain ⟨hreceived, hbuffer⟩ := (h.setBuffer (w.buffer stream).takeRemaining.1 stream).emitAll
    (fun _ => clock stream) stream (w.buffer stream).takeRemaining.2.toList events
  refine ⟨hreceived, fun s hs => ?_⟩
  rw [buffer_setBuffer] at hbuffer
  exact (congrFun hbuffer s).trans (if_neg hs)

theorem Received.close (h : Received log t records t' w) (clock : Stream → Timestamp) :
    Received log t (records ++ (Buffers.closing w.buffer clock).map Emission.record)
      (w.close t' clock).tree (w.close t' clock).writer := by
  obtain ⟨hout, hbuffer⟩ := h.flush clock .stdout []
  obtain ⟨herr, -⟩ := hout.flush clock .stderr
    (Writer.flush (fun _ => clock .stdout) .stdout ⟨t', w, []⟩).events
  have hremaining : ∀ b b' : Buffers, b .stderr = b' .stderr →
      b.remaining clock .stderr = b'.remaining clock .stderr := by
    intro b b' hb
    rw [Buffers.remaining, Buffers.remaining, hb]
  rw [hremaining _ _ (hbuffer .stderr (by simp)), List.append_assoc, ← List.map_append] at herr
  exact herr

/-- What a log gets from a writer is what the line buffers give out. -/
theorem session_received (h : w.log = some log) (t : FileTree) (chunks : List Chunk)
    (clock : Stream → Timestamp) :
    Received log t ((Buffers.emitted w.buffer chunks clock).map Emission.record)
      (w.session t chunks clock).tree (w.session t chunks clock).writer := by
  have hstart : Received log t [] t w := ⟨rfl, h⟩
  obtain ⟨hchunks, hbuffer⟩ := hstart.appendAll chunks
  have hall := hchunks.close clock
  rw [hbuffer, List.nil_append, ← List.map_append] at hall
  exact hall

/-! ## Without a log -/

theorem emitAll_discards {p : Progress} (h : p.writer.log = none) (clock : Nat → Timestamp)
    (stream : Stream) (lines : List ByteArray) : emitAll clock stream lines p = p := by
  unfold Writer.emitAll
  induction lines.zipIdx with
  | nil => rfl
  | cons q indexed ih =>
    obtain ⟨line, i⟩ := q
    have hfirst : Writer.emit (clock i) stream line p = p := by
      unfold Writer.emit
      simp only [h]
    rw [List.foldl_cons]
    dsimp only
    rw [hfirst]
    exact ih

theorem flush_discards {p : Progress} (h : p.writer.log = none) (clock : Nat → Timestamp)
    (stream : Stream) :
    (flush clock stream p).tree = p.tree ∧ (flush clock stream p).writer.log = none := by
  have hset : (p.writer.setBuffer (p.writer.buffer stream).takeRemaining.1 stream).log = none := by
    cases stream
    · exact h
    · exact h
  unfold Writer.flush
  dsimp only
  rw [emitAll_discards hset]
  exact ⟨rfl, hset⟩

/-- A writer whose log could not be opened writes nothing. -/
theorem session_discards (h : w.log = none) (t : FileTree) (chunks : List Chunk)
    (clock : Stream → Timestamp) : (w.session t chunks clock).tree = t := by
  have hchunks : w.appendAll t chunks = (t, w) := by
    induction chunks with
    | nil => rfl
    | cons c chunks ih =>
      have hinactive : ¬ w.isActive = true := by rw [isActive, h]; simp
      have hfirst : w.append t c.clock c.stream c.bytes = ⟨t, w, []⟩ := by
        rw [Writer.append, if_neg hinactive]
      rw [appendAll, hfirst]
      exact ih
  obtain ⟨hout, hlog⟩ := flush_discards (p := ⟨t, w, []⟩) h (fun _ => clock .stdout) .stdout
  rw [session, hchunks, close]
  exact (flush_discards hlog (fun _ => clock .stderr) .stderr).1.trans hout

end Writer

end Overseer.Log
