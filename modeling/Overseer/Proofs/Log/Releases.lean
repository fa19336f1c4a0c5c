import Overseer.Proofs.Log.Chunks

/-! No byte is lost in a line buffer, whatever its limit is. `Release` marks a line that was given
out as ended by a newline or as forced out; the lines so marked and the bytes pending are the bytes
pushed (`bytes_conserved`). -/

namespace Overseer.Log

/-- A line that was given out: a newline ended it, or it was forced out. -/
structure Release where
  line : List UInt8
  forced : Bool
  deriving DecidableEq

/-- The bytes that were taken for a line. -/
def Release.bytes (r : Release) : List UInt8 := if r.forced then r.line else r.line ++ [newline]

theorem flatMap_terminated (bytes : List UInt8) :
    (terminated bytes).flatMap (· ++ [newline]) ++ unended bytes = bytes := by
  by_cases h : newline ∈ bytes
  · obtain ⟨line, rest, hbytes, hfree⟩ := List.eq_append_cons_of_mem h
    have hshorter : rest.length < bytes.length := by
      rw [hbytes]
      simp only [List.length_append, List.length_cons]
      omega
    rw [hbytes, terminated_record hfree, unended_append_newline, List.flatMap_cons,
      List.append_assoc, flatMap_terminated rest, List.append_assoc, List.singleton_append]
  · rw [terminated_of_free h, unended_of_free h]
    rfl
termination_by bytes.length

/-- A line whose bytes hold a newline at its end only. -/
theorem count_newline_bytes {r : Release} (h : newline ∉ r.line) :
    r.bytes.count newline = if r.forced then 0 else 1 := by
  unfold Release.bytes
  split
  · exact List.count_eq_zero_of_not_mem h
  · rw [List.count_append, List.count_eq_zero_of_not_mem h]
    rfl

/-- There is a newline for each line that was not forced out. -/
theorem count_newline_flatMap (rs : List Release) (h : ∀ r ∈ rs, newline ∉ r.line) :
    (rs.flatMap Release.bytes).count newline = rs.countP (¬ ·.forced) := by
  induction rs with
  | nil => rfl
  | cons r rs ih =>
    have hr := count_newline_bytes (h r List.mem_cons_self)
    have hrest := ih fun r' hr' => h r' (List.mem_cons_of_mem _ hr')
    rw [List.flatMap_cons, List.count_append, hr, hrest, List.countP_cons]
    cases r.forced
    · simp [Nat.add_comm]
    · simp

namespace LineBuffer

/-! ## One push -/

/-- What a push gives out: the lines that are ended by now, and the one in progress if it is longer
than the limit. -/
def releases (b : LineBuffer) (chunk : ByteArray) : List Release :=
  (terminated (b.rest ++ chunk.data.toList)).map (⟨·, false⟩) ++
    if b.limit < (unended (b.rest ++ chunk.data.toList)).length then
      [⟨unended (b.rest ++ chunk.data.toList), true⟩]
    else []

variable {b : LineBuffer} (chunk : ByteArray)

theorem releases_lines (h : newline ∉ b.rest) :
    (b.releases chunk).map (·.line) = lineBytes (b.push chunk).2 := by
  have hpush := congrArg (·.1) (b.push_lines chunk h)
  dsimp only at hpush
  rw [hpush, releases, List.map_append, List.map_map]
  split
  · simp [Function.comp_def]
  · simp [Function.comp_def]

theorem releases_bytes (h : newline ∉ b.rest) :
    (b.releases chunk).flatMap Release.bytes ++ (b.push chunk).1.rest =
      b.rest ++ chunk.data.toList := by
  have hpush := congrArg (·.2) (b.push_lines chunk h)
  have hended : ((terminated (b.rest ++ chunk.data.toList)).map (⟨·, false⟩)).flatMap
      Release.bytes = (terminated (b.rest ++ chunk.data.toList)).flatMap (· ++ [newline]) := by
    rw [List.flatMap_map]
    rfl
  have hall := flatMap_terminated (b.rest ++ chunk.data.toList)
  dsimp only at hpush
  rw [hpush, releases, List.flatMap_append, hended]
  split
  · rw [List.append_nil, List.flatMap_singleton]
    exact hall
  · rw [List.flatMap_nil, List.append_nil]
    exact hall

/-- At most the last line of a push is forced out; that one is longer than the limit, and nothing
stays. -/
theorem releases_forced (h : newline ∉ b.rest) :
    (∀ r ∈ (b.releases chunk).dropLast, r.forced = false) ∧
      ∀ r ∈ b.releases chunk, r.forced = true →
        b.limit < r.line.length ∧ (b.push chunk).1.rest = [] := by
  have hpush := congrArg (·.2) (b.push_lines chunk h)
  dsimp only at hpush
  have hended : ∀ r ∈ (terminated (b.rest ++ chunk.data.toList)).map (⟨·, false⟩ : _ → Release),
      r.forced = false := by
    intro r hr
    obtain ⟨line, -, rfl⟩ := List.mem_map.mp hr
    rfl
  rw [hpush, releases]
  split
  · next hlong =>
    rw [List.dropLast_concat]
    refine ⟨hended, fun r hr hforced => ?_⟩
    rcases List.mem_append.mp hr with hr | hr
    · rw [hended r hr] at hforced
      cases hforced
    · rw [List.mem_singleton.mp hr]
      exact ⟨hlong, rfl⟩
  · rw [List.append_nil]
    refine ⟨fun r hr => hended r ((List.dropLast_subset _) hr), fun r hr hforced => ?_⟩
    rw [hended r hr] at hforced
    cases hforced

theorem releases_free (b : LineBuffer) : ∀ r ∈ b.releases chunk, newline ∉ r.line := by
  intro r hr
  rcases List.mem_append.mp hr with hr | hr
  · obtain ⟨line, hline, rfl⟩ := List.mem_map.mp hr
    exact newline_not_mem_terminated hline
  · split at hr
    · rw [List.mem_singleton.mp hr]
      exact newline_not_mem_unended _
    · cases hr

/-! ## Push after push -/

/-- The lines that each of the chunks completes. -/
def bursts (b : LineBuffer) : List ByteArray → List (List ByteArray)
  | [] => []
  | c :: chunks => (b.push c).2 :: (b.push c).1.bursts chunks

/-- The same lines, marked. -/
def marked (b : LineBuffer) : List ByteArray → List (List Release)
  | [] => []
  | c :: chunks => b.releases c :: (b.push c).1.marked chunks

theorem flatten_bursts (b : LineBuffer) (chunks : List ByteArray) :
    (b.bursts chunks).flatten = (b.feed chunks).2 := by
  induction chunks generalizing b with
  | nil => rfl
  | cons c chunks ih => rw [bursts, List.flatten_cons, ih, feed]

theorem marked_lines (h : newline ∉ b.rest) (chunks : List ByteArray) :
    (b.marked chunks).map (·.map (·.line)) = (b.bursts chunks).map lineBytes := by
  induction chunks generalizing b with
  | nil => rfl
  | cons c chunks ih =>
    rw [marked, bursts, List.map_cons, List.map_cons, releases_lines c h, ih (b.push_free c h).1]

theorem marked_bytes (h : newline ∉ b.rest) (chunks : List ByteArray) :
    (b.marked chunks).flatten.flatMap Release.bytes ++ (b.feed chunks).1.rest =
      b.rest ++ (lineBytes chunks).flatten := by
  induction chunks generalizing b with
  | nil => simp [marked, feed, lineBytes]
  | cons c chunks ih =>
    calc (b.marked (c :: chunks)).flatten.flatMap Release.bytes ++ (b.feed (c :: chunks)).1.rest
        = (b.releases c).flatMap Release.bytes ++
            (((b.push c).1.marked chunks).flatten.flatMap Release.bytes ++
              ((b.push c).1.feed chunks).1.rest) := by
          rw [marked, List.flatten_cons, List.flatMap_append, List.append_assoc, feed]
      _ = (b.releases c).flatMap Release.bytes ++
            ((b.push c).1.rest ++ (lineBytes chunks).flatten) := by
          rw [ih (b.push_free c h).1]
      _ = b.rest ++ c.data.toList ++ (lineBytes chunks).flatten := by
          rw [← List.append_assoc, releases_bytes c h]
      _ = b.rest ++ (lineBytes (c :: chunks)).flatten := by simp [lineBytes]

theorem marked_forced (h : newline ∉ b.rest) (chunks : List ByteArray) {i : Nat}
    {rs : List Release} (hi : (b.marked chunks)[i]? = some rs) :
    (∀ r ∈ rs.dropLast, r.forced = false) ∧
      ∀ r ∈ rs, r.forced = true →
        b.limit < r.line.length ∧ (b.feed (chunks.take (i + 1))).1.rest = [] := by
  induction chunks generalizing b i with
  | nil => cases hi
  | cons c chunks ih =>
    cases i with
    | zero =>
      rw [marked, List.getElem?_cons_zero, Option.some.injEq] at hi
      rw [List.take_succ_cons, List.take_zero, feed, feed, ← hi]
      exact releases_forced c h
    | succ i =>
      have hrest := ih (b.push_free c h).1 hi
      rw [push_limit] at hrest
      exact hrest

theorem marked_free (b : LineBuffer) (chunks : List ByteArray) :
    ∀ r ∈ (b.marked chunks).flatten, newline ∉ r.line := by
  induction chunks generalizing b with
  | nil => simp [marked]
  | cons c chunks ih =>
    intro r hr
    rcases List.mem_append.mp hr with hr | hr
    · exact b.releases_free c r hr
    · exact ih (b.push c).1 r hr

theorem feed_pending_le (h : b.rest.length ≤ b.limit) (chunks : List ByteArray) :
    (b.feed chunks).1.rest.length ≤ b.limit := by
  induction chunks generalizing b with
  | nil => exact h
  | cons c chunks ih =>
    have hpending : (b.push c).1.rest.length ≤ (b.push c).1.limit := by
      rw [push_limit]
      exact b.push_pending_le c
    have hrest := ih hpending
    rw [push_limit] at hrest
    exact hrest

/-- Each line given out was ended by a newline or forced out, and these lines with the bytes
pending are the bytes pushed. A push forces out at most its last line, one longer than the limit,
and keeps nothing then; it never keeps more than the limit. -/
theorem bytes_conserved (limit : Nat) (chunks : List ByteArray) :
    ∃ groups : List (List Release),
      groups.map (·.map (·.line)) = ((withLimit limit).bursts chunks).map lineBytes ∧
      groups.flatten.flatMap Release.bytes ++ ((withLimit limit).feed chunks).1.rest =
        (lineBytes chunks).flatten ∧
      (∀ i rs, groups[i]? = some rs →
        (∀ r ∈ rs.dropLast, r.forced = false) ∧
          ∀ r ∈ rs, r.forced = true → limit < r.line.length ∧
            ((withLimit limit).feed (chunks.take (i + 1))).1.rest = []) ∧
      (∀ r ∈ groups.flatten, newline ∉ r.line) ∧
      (∀ i, newline ∉ ((withLimit limit).feed (chunks.take i)).1.rest ∧
        ((withLimit limit).feed (chunks.take i)).1.rest.length ≤ limit) ∧
      ((withLimit limit).feed chunks).2.length =
        (lineBytes chunks).flatten.count newline + groups.flatten.countP (·.forced) := by
  have hnew : newline ∉ (withLimit limit).rest := List.not_mem_nil
  have hlines := marked_lines hnew chunks
  have hbytes := marked_bytes hnew chunks
  have hfree := (withLimit limit).marked_free chunks
  refine ⟨(withLimit limit).marked chunks, hlines, hbytes,
    fun i rs hi => marked_forced hnew chunks hi, hfree,
    fun i => ⟨(feed_free hnew _).1, feed_pending_le (Nat.zero_le _) _⟩, ?_⟩
  have hlength : ((withLimit limit).feed chunks).2.length =
      ((withLimit limit).marked chunks).flatten.length := by
    have hflat := congrArg (fun x => x.flatten.length) hlines
    simpa [← flatten_bursts, lineBytes, Function.comp_def, List.length_flatten] using hflat.symm
  have hnewlines : (lineBytes chunks).flatten.count newline =
      ((withLimit limit).marked chunks).flatten.countP (¬ ·.forced) := by
    rw [← count_newline_flatMap _ hfree]
    have hcount := congrArg (List.count newline) hbytes
    rw [List.count_append, List.count_eq_zero_of_not_mem (feed_free hnew chunks).1] at hcount
    exact hcount.symm
  rw [hlength, hnewlines, List.length_eq_countP_add_countP (·.forced), Nat.add_comm]

/-- With a limit of two bytes, a newline ends the first line and the next is forced out. -/
example : (withLimit 2).marked ["a\nbcd".toUTF8, "e".toUTF8] =
    [[⟨[97], false⟩, ⟨[98, 99, 100], true⟩], []] := by decide +kernel

end LineBuffer

end Overseer.Log
