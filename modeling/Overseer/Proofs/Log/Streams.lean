import Overseer.Proofs.Log.Session

/-! The two streams of a writer do not mix: what is given out for one is what a line buffer of its
own would give, whatever comes for the other in between (`streams_apart`). -/

namespace Overseer.Log

/-- The chunks of one stream. -/
def ofStream (stream : Stream) (chunks : List Chunk) : List ByteArray :=
  (chunks.filter (·.stream = stream)).map (·.bytes)

/-- The lines given out for one stream. -/
def linesOf (stream : Stream) (es : List Emission) : List ByteArray :=
  (es.filter (·.stream = stream)).map (·.line)

theorem ofStream_cons (stream : Stream) (c : Chunk) (chunks : List Chunk) :
    ofStream stream (c :: chunks) =
      (if c.stream = stream then [c.bytes] else []) ++ ofStream stream chunks := by
  by_cases h : c.stream = stream
  · simp [ofStream, h]
  · simp [ofStream, h]

theorem linesOf_append (stream : Stream) (x y : List Emission) :
    linesOf stream (x ++ y) = linesOf stream x ++ linesOf stream y := by
  simp [linesOf]

theorem stream_of_mem_emissions {clock : Nat → Timestamp} {stream : Stream}
    {lines : List ByteArray} {e : Emission} (h : e ∈ emissions clock stream lines) :
    e.stream = stream := by
  obtain ⟨⟨line, i⟩, -, rfl⟩ := List.mem_map.mp h
  rfl

theorem map_line_emissions (clock : Nat → Timestamp) (stream : Stream) (lines : List ByteArray) :
    (emissions clock stream lines).map (·.line) = lines := by
  unfold emissions
  rw [List.map_map]
  exact List.zipIdx_map_fst 0 lines

theorem linesOf_emissions (clock : Nat → Timestamp) (stream s : Stream) (lines : List ByteArray) :
    linesOf s (emissions clock stream lines) = if stream = s then lines else [] := by
  unfold linesOf
  by_cases h : stream = s
  · rw [if_pos h, List.filter_eq_self.mpr, map_line_emissions]
    intro e he
    simp [stream_of_mem_emissions he, h]
  · rw [if_neg h, List.filter_eq_nil_iff.mpr, List.map_nil]
    intro e he
    simp [stream_of_mem_emissions he, h]

namespace Buffers

/-- After any chunks, the buffer of a stream is as if only the chunks of that stream had come. -/
theorem takeAll_stream (b : Buffers) (chunks : List Chunk) (stream : Stream) :
    chunks.foldl take b stream = ((b stream).feed (ofStream stream chunks)).1 := by
  induction chunks generalizing b with
  | nil => rfl
  | cons c chunks ih =>
    rw [List.foldl_cons, ih, ofStream_cons, LineBuffer.feed_append]
    by_cases h : c.stream = stream
    · subst h
      simp [take, LineBuffer.feed]
    · simp [take, h, Ne.symm h, LineBuffer.feed]

theorem linesOf_groups (b : Buffers) (chunks : List Chunk) (stream : Stream) :
    linesOf stream (b.groups chunks).flatten =
      ((b stream).feed (ofStream stream chunks)).2 := by
  induction chunks generalizing b with
  | nil => rfl
  | cons c chunks ih =>
    rw [groups, List.flatten_cons, linesOf_append, ih, ofStream_cons, LineBuffer.feed_append, group,
      linesOf_emissions]
    by_cases h : c.stream = stream
    · subst h
      simp [take, LineBuffer.feed]
    · simp [take, h, Ne.symm h, LineBuffer.feed]

theorem linesOf_closing (b : Buffers) (clock : Stream → Timestamp) (stream : Stream) :
    linesOf stream (b.closing clock) = (b stream).takeRemaining.2.toList := by
  rw [closing, linesOf_append, remaining, remaining, linesOf_emissions, linesOf_emissions]
  cases stream <;> simp

/-- All that is given out for a stream is what its buffer alone gives for its chunks. -/
theorem linesOf_emitted (b : Buffers) (chunks : List Chunk) (clock : Stream → Timestamp)
    (stream : Stream) :
    linesOf stream (b.emitted chunks clock) = (b stream).drain (ofStream stream chunks) := by
  rw [emitted, linesOf_append, linesOf_groups, linesOf_closing, takeAll_stream, LineBuffer.drain]

/-- A chunk completes what it completes in the buffer of its stream alone. -/
theorem groups_append (b : Buffers) (before : List Chunk) (c : Chunk) (after : List Chunk) :
    (b.groups (before ++ c :: after))[before.length]? =
      some (emissions c.clock c.stream
        (((b c.stream).feed (ofStream c.stream before)).1.push c.bytes).2) := by
  induction before generalizing b with
  | nil => rfl
  | cons d before ih =>
    rw [List.cons_append, groups, List.length_cons, List.getElem?_cons_succ, ih, ofStream_cons,
      LineBuffer.feed_append]
    by_cases h : d.stream = c.stream
    · simp [take, h, LineBuffer.feed]
    · simp [take, h, Ne.symm h, LineBuffer.feed]

theorem length_groups (b : Buffers) (chunks : List Chunk) :
    (b.groups chunks).length = chunks.length := by
  induction chunks generalizing b with
  | nil => rfl
  | cons c chunks ih => rw [groups, List.length_cons, ih, List.length_cons]

end Buffers

theorem new_rest : LineBuffer.new.rest = [] := rfl

/-- The log of a new writer gets, chunk by chunk and then at the end, the records of what each
chunk completes in the buffer of its stream alone. So the lines of a stream are those that a line
buffer of its own gives, and, where none is too long, those of its bytes. -/
theorem streams_apart (path : String) (log : RotatingLog) (failed : Bool) (t : FileTree)
    (chunks : List Chunk) (clock : Stream → Timestamp) :
    ∃ (groups : List (List Emission)) (last : List Emission),
      Writer.Received log t ((groups.flatten ++ last).map Emission.record)
        ((Writer.fresh path log failed).session t chunks clock).tree
        ((Writer.fresh path log failed).session t chunks clock).writer ∧
      groups.length = chunks.length ∧
      (∀ before c after, chunks = before ++ c :: after →
        groups[before.length]? = some (emissions c.clock c.stream
          ((LineBuffer.new.feed (ofStream c.stream before)).1.push c.bytes).2)) ∧
      (∃ out err : List ByteArray, last =
        emissions (fun _ => clock .stdout) .stdout out ++
          emissions (fun _ => clock .stderr) .stderr err) ∧
      ∀ stream,
        linesOf stream (groups.flatten ++ last) =
          LineBuffer.new.drain (ofStream stream chunks) ∧
        ((∀ run, run <:+: (lineBytes (ofStream stream chunks)).flatten → newline ∉ run →
            run.length ≤ defaultLimit) →
          lineBytes (linesOf stream (groups.flatten ++ last)) =
            terminated (lineBytes (ofStream stream chunks)).flatten ++
              if unended (lineBytes (ofStream stream chunks)).flatten = [] then []
              else [unended (lineBytes (ofStream stream chunks)).flatten]) := by
  have hreceived := Writer.session_received (w := Writer.fresh path log failed) rfl t chunks clock
  rw [Writer.fresh_buffer] at hreceived
  refine ⟨Buffers.new.groups chunks, _, hreceived, Buffers.length_groups _ _, ?_,
    ⟨_, _, rfl⟩, fun stream => ?_⟩
  · rintro before c after rfl
    exact Buffers.groups_append _ before c after
  · have hlines : linesOf stream (Buffers.new.emitted chunks clock) =
        LineBuffer.new.drain (ofStream stream chunks) :=
      Buffers.new.linesOf_emitted chunks clock stream
    refine ⟨hlines, fun hshort => ?_⟩
    have hall := LineBuffer.drain_lines (b := LineBuffer.new) (by simp [new_rest])
      (ofStream stream chunks) hshort
    rw [new_rest, List.nil_append, ← hlines] at hall
    exact hall

end Overseer.Log
