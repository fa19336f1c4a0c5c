import Overseer.Proofs.Log.Lines

/-! How a stream is cut into chunks does not show in the lines of a line buffer, as long as no
line is longer than its limit: they are the pieces between the newlines (`feed_pieces`). -/

namespace Overseer.Log

/-! ## Pieces between newlines -/

/-- The pieces are the lines that a newline ends, and what comes after the last newline. -/
theorem splitOn_newline (bytes : List UInt8) :
    bytes.splitOn newline = terminated bytes ++ [unended bytes] := by
  by_cases h : newline ∈ bytes
  · obtain ⟨line, rest, hbytes, hfree⟩ := List.eq_append_cons_of_mem h
    have hshorter : rest.length < bytes.length := by
      rw [hbytes]
      simp only [List.length_append, List.length_cons]
      omega
    rw [hbytes, List.splitOn_append_cons_self_of_not_mem hfree, terminated_record hfree,
      unended_append_newline, splitOn_newline rest]
    rfl
  · rw [List.splitOn_eq_singleton h, terminated_of_free h, unended_of_free h]
    rfl
termination_by bytes.length

theorem splitOn_newline_append (x y : List UInt8) :
    (x ++ y).splitOn newline = terminated x ++ (unended x ++ y).splitOn newline := by
  rw [splitOn_newline, splitOn_newline, terminated_append, unended_append, List.append_assoc]

/-- A stretch without newlines lies within a piece. -/
theorem exists_piece {bytes run : List UInt8} (h : run <:+: bytes) (hfree : newline ∉ run) :
    ∃ piece ∈ bytes.splitOn newline, run <:+: piece := by
  obtain ⟨x, y, rfl⟩ := h
  -- the piece begins after the last newline in front of the stretch
  have hopen : newline ∉ unended x ++ run := by
    rw [List.mem_append, not_or]
    exact ⟨newline_not_mem_unended x, hfree⟩
  rw [List.append_assoc, splitOn_newline_append, ← List.append_assoc]
  by_cases hy : newline ∈ y
  · obtain ⟨before, rest, rfl, hbefore⟩ := List.eq_append_cons_of_mem hy
    have hpiece : newline ∉ unended x ++ run ++ before := by
      rw [List.mem_append, not_or]
      exact ⟨hopen, hbefore⟩
    refine ⟨unended x ++ run ++ before, ?_, unended x, before, rfl⟩
    rw [← List.append_assoc, List.splitOn_append_cons_self_of_not_mem hpiece]
    exact List.mem_append_right _ List.mem_cons_self
  · have hpiece : newline ∉ unended x ++ run ++ y := by
      rw [List.mem_append, not_or]
      exact ⟨hopen, hy⟩
    refine ⟨unended x ++ run ++ y, ?_, unended x, y, rfl⟩
    rw [List.splitOn_eq_singleton hpiece]
    exact List.mem_append_right _ List.mem_cons_self

/-! ## Chunk after chunk -/

private theorem bytes_injective {x y : ByteArray} (h : x.data.toList = y.data.toList) : x = y :=
  ByteArray.ext (Array.toList_inj.mp h)

theorem lineBytes_injective {x y : List ByteArray} (h : lineBytes x = lineBytes y) : x = y :=
  List.map_inj_right (fun _ _ => bytes_injective) |>.mp h

namespace LineBuffer

theorem feed_limit (b : LineBuffer) (chunks : List ByteArray) :
    (b.feed chunks).1.limit = b.limit := by
  induction chunks generalizing b with
  | nil => rfl
  | cons c chunks ih => rw [feed, ih, push_limit]

theorem eq_of_rest {b c : LineBuffer} (hrest : b.rest = c.rest) (hlimit : b.limit = c.limit) :
    b = c := by
  obtain ⟨pending, limit⟩ := b
  obtain ⟨pending', limit'⟩ := c
  obtain rfl : limit = limit' := hlimit
  rw [show pending = pending' from bytes_injective hrest]

/-- Where no piece between newlines is longer than the limit, chunks give all pieces but the
last, and leave the last, if it has bytes. Other chunks of the same bytes give the same. -/
theorem feed_pieces (bytes : List UInt8) (limit : Nat)
    (hshort : ∀ piece ∈ bytes.splitOn newline, piece.length ≤ limit)
    (chunks : List ByteArray) (hchunks : (lineBytes chunks).flatten = bytes) :
    lineBytes ((withLimit limit).feed chunks).2 = (bytes.splitOn newline).dropLast ∧
      ((withLimit limit).feed chunks).1.takeRemaining.2.map (·.data.toList) =
        (bytes.splitOn newline).getLast?.filter (· ≠ []) ∧
      ∀ others : List ByteArray, (lineBytes others).flatten = bytes →
        (withLimit limit).feed others = (withLimit limit).feed chunks := by
  have hnew : newline ∉ (withLimit limit).rest := List.not_mem_nil
  have hfeed (cs : List ByteArray) (hcs : (lineBytes cs).flatten = bytes) :
      lineBytes ((withLimit limit).feed cs).2 = terminated bytes ∧
        ((withLimit limit).feed cs).1.rest = unended bytes := by
    have hall : (withLimit limit).rest ++ (lineBytes cs).flatten = bytes := hcs
    have := feed_lines hnew cs fun run hrun hfree => by
      obtain ⟨piece, hpiece, hin⟩ := exists_piece (hall ▸ hrun) hfree
      exact hin.length_le.trans (hshort piece hpiece)
    rwa [hall] at this
  obtain ⟨hlines, hrest⟩ := hfeed chunks hchunks
  refine ⟨?_, ?_, fun others hothers => ?_⟩
  · rw [hlines, splitOn_newline, List.dropLast_concat]
  · rw [takeRemaining_rest, hrest, splitOn_newline, List.getLast?_concat, Option.filter_some]
    by_cases h : unended bytes = []
    · rw [if_pos h, if_neg (by simpa using h)]
    · rw [if_neg h, if_pos (by simpa using h)]
  · obtain ⟨hlines', hrest'⟩ := hfeed others hothers
    refine Prod.ext (eq_of_rest (hrest'.trans hrest.symm) ?_)
      (lineBytes_injective (hlines'.trans hlines.symm))
    rw [feed_limit, feed_limit]

/-- Two bytes, an empty line and an open one, cut within a line and on both sides of a newline. -/
def cutUp : List ByteArray := ["a".toUTF8, "".toUTF8, "b".toUTF8, "\n".toUTF8, "\nc".toUTF8]

theorem feed_pieces_cutUp :
    (∀ piece ∈ [97, 98, 10, 10, 99].splitOn newline, piece.length ≤ 2) ∧
      (lineBytes cutUp).flatten = [97, 98, 10, 10, 99] ∧
      lineBytes ((withLimit 2).feed cutUp).2 = [[97, 98], []] ∧
      ((withLimit 2).feed cutUp).1.takeRemaining.2.map (·.data.toList) = some [99] ∧
      (withLimit 2).feed ["ab\n\nc".toUTF8] = (withLimit 2).feed cutUp := by
  have hshort : ∀ piece ∈ [97, 98, 10, 10, 99].splitOn newline, piece.length ≤ 2 := by decide
  have hbytes : (lineBytes cutUp).flatten = [97, 98, 10, 10, 99] := by decide
  obtain ⟨hlines, hrest, hothers⟩ := feed_pieces [97, 98, 10, 10, 99] 2 hshort cutUp hbytes
  exact ⟨hshort, hbytes, hlines, hrest, hothers _ (by decide)⟩

end LineBuffer

end Overseer.Log
