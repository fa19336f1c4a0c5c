import Mathlib.Data.List.TakeWhile
import Overseer.Log.Reading

/-! The lines that a line buffer gives out. `push_lines` is one push, in terms of the bytes
pending and the chunk; `drain_lines`: as long as no line is longer than the limit, the lines do
not depend on how the bytes were cut into chunks. -/

namespace Overseer.Log

/-- What comes after the last newline. -/
def unended (bytes : List UInt8) : List UInt8 :=
  (bytes.reverse.takeWhile (· ≠ newline)).reverse

theorem terminated_of_free {bytes : List UInt8} (h : newline ∉ bytes) : terminated bytes = [] := by
  induction bytes with
  | nil => rfl
  | cons b r ih =>
    simp only [List.mem_cons, not_or] at h
    rw [terminated, if_neg (Ne.symm h.1), ih h.2]

theorem newline_not_mem_terminated {bytes line : List UInt8} (h : line ∈ terminated bytes) :
    newline ∉ line := by
  induction bytes generalizing line with
  | nil => simp [terminated] at h
  | cons b r ih =>
    rw [terminated] at h
    by_cases hb : b = newline
    · rw [if_pos hb] at h
      rcases List.mem_cons.mp h with rfl | h
      · simp
      · exact ih h
    · rw [if_neg hb] at h
      cases hr : terminated r with
      | nil => simp [hr] at h
      | cons p more =>
        rw [hr] at h ih
        rcases List.mem_cons.mp h with rfl | h
        · simp only [List.mem_cons, not_or]
          exact ⟨Ne.symm hb, ih List.mem_cons_self⟩
        · exact ih (List.mem_cons_of_mem _ h)

theorem unended_of_free {bytes : List UInt8} (h : newline ∉ bytes) : unended bytes = bytes := by
  rw [unended, List.takeWhile_eq_self_iff.mpr, List.reverse_reverse]
  intro b hb
  rw [decide_eq_true_eq]
  rintro rfl
  exact h (List.mem_reverse.mp hb)

theorem unended_append_newline (x y : List UInt8) :
    unended (x ++ newline :: y) = unended y := by
  have hstop : (y.reverse ++ newline :: x.reverse).takeWhile (· ≠ newline) =
      y.reverse.takeWhile (· ≠ newline) := by
    rw [List.takeWhile_append]
    split
    · next hlength =>
      rw [(List.takeWhile_prefix _).eq_of_length hlength]
      simp
    · rfl
  rw [unended, unended, List.reverse_append, List.reverse_cons, List.append_assoc,
    List.singleton_append, hstop]

theorem unended_suffix (bytes : List UInt8) : unended bytes <:+ bytes := by
  have := List.takeWhile_prefix (l := bytes.reverse) (· ≠ newline)
  rw [← List.reverse_suffix, List.reverse_reverse] at this
  exact this

theorem newline_not_mem_unended (bytes : List UInt8) : newline ∉ unended bytes := by
  intro h
  rw [unended, List.mem_reverse] at h
  simpa using List.all_eq_true.mp List.all_takeWhile _ h

private theorem append_of_free {p : List UInt8} (h : newline ∉ p) (x y : List UInt8) :
    terminated (p ++ x ++ y) = terminated (p ++ x) ++ terminated (unended (p ++ x) ++ y) ∧
      unended (p ++ x ++ y) = unended (unended (p ++ x) ++ y) := by
  induction x generalizing p with
  | nil => simp [terminated_of_free h, unended_of_free h]
  | cons b r ih =>
    by_cases hb : b = newline
    · subst hb
      have hempty : newline ∉ ([] : List UInt8) := by simp
      obtain ⟨hlines, hrest⟩ := ih hempty
      rw [List.nil_append] at hlines hrest
      rw [List.append_assoc, List.cons_append, terminated_record h, terminated_record h,
        unended_append_newline, unended_append_newline, hlines, hrest]
      exact ⟨rfl, rfl⟩
    · have hfree : newline ∉ p ++ [b] := by simp [h, Ne.symm hb]
      have := ih hfree
      rwa [List.append_assoc p, List.singleton_append] at this

theorem terminated_append (x y : List UInt8) :
    terminated (x ++ y) = terminated x ++ terminated (unended x ++ y) :=
  (append_of_free (p := []) (by simp) x y).1

theorem unended_append (x y : List UInt8) : unended (x ++ y) = unended (unended x ++ y) :=
  (append_of_free (p := []) (by simp) x y).2

/-! ## Scanning -/

/-- The bytes of each line. -/
def lineBytes (lines : List ByteArray) : List (List UInt8) := lines.map (·.data.toList)

theorem lineBytes_append (x y : List ByteArray) :
    lineBytes (x ++ y) = lineBytes x ++ lineBytes y := List.map_append

theorem toList_extract (bytes : ByteArray) (i j : Nat) :
    (bytes.extract i j).data.toList = (bytes.data.toList.drop i).take (j - i) := by
  rw [ByteArray.data_extract, Array.toList_extract, List.extract_eq_take_drop]

theorem drop_place {bytes : ByteArray} {i : Nat} (h : i < bytes.size) :
    bytes.data.toList.drop i = bytes[i] :: bytes.data.toList.drop (i + 1) := by
  rw [ByteArray.getElem_eq_getElem_data, ← Array.getElem_toList]
  exact List.drop_eq_getElem_cons h

theorem newlineFrom?_eq_none {bytes : ByteArray} {i : Nat} (h : newlineFrom? bytes i = none) :
    newline ∉ bytes.data.toList.drop i := by
  fun_induction newlineFrom? bytes i with
  | case1 => cases h
  | case2 i hi hb ih =>
    rw [drop_place hi, List.mem_cons, not_or]
    exact ⟨Ne.symm hb, ih h⟩
  | case3 i hi =>
    rw [List.drop_eq_nil_of_le (Nat.le_of_not_lt hi)]
    exact List.not_mem_nil

theorem newlineFrom?_eq_some {bytes : ByteArray} {i stop : Nat}
    (h : newlineFrom? bytes i = some stop) :
    ∃ passed, newline ∉ passed ∧ stop = i + passed.length ∧
      bytes.data.toList.drop i = passed ++ newline :: bytes.data.toList.drop (stop + 1) := by
  fun_induction newlineFrom? bytes i with
  | case1 i hi hb =>
    obtain rfl : i = stop := Option.some.inj h
    refine ⟨[], List.not_mem_nil, rfl, ?_⟩
    rw [drop_place hi, hb, List.nil_append]
  | case2 i hi hb ih =>
    obtain ⟨passed, hfree, hstop, hdrop⟩ := ih h
    refine ⟨bytes[i] :: passed, ?_, ?_, ?_⟩
    · rw [List.mem_cons, not_or]
      exact ⟨Ne.symm hb, hfree⟩
    · rw [hstop, List.length_cons, Nat.add_right_comm, Nat.add_assoc]
    · rw [drop_place hi, hdrop, List.cons_append]
  | case3 => cases h

/-- The bytes from `start` on are those of the line in progress up to `scanFrom`, without a newline,
and those not yet searched. A newline that is found ends that line, and the next one begins. -/
theorem cutLines_lines {bytes : ByteArray} {scanFrom start : Nat} {lines : Array ByteArray}
    {held : List UInt8} (hfree : newline ∉ held) (hscan : scanFrom = start + held.length)
    (hheld : bytes.data.toList.drop start = held ++ bytes.data.toList.drop scanFrom) :
    lineBytes (cutLines bytes scanFrom start lines).1.toList =
        lineBytes lines.toList ++ terminated (bytes.data.toList.drop start) ∧
      bytes.data.toList.drop (cutLines bytes scanFrom start lines).2 =
        unended (bytes.data.toList.drop start) := by
  fun_induction cutLines bytes scanFrom start lines generalizing held with
  | case1 scanFrom start lines hnone =>
    have hall : newline ∉ bytes.data.toList.drop start := by
      rw [hheld, List.mem_append, not_or]
      exact ⟨hfree, newlineFrom?_eq_none hnone⟩
    rw [terminated_of_free hall, unended_of_free hall, List.append_nil]
    exact ⟨rfl, rfl⟩
  | case2 scanFrom start lines stop hstop ih =>
    obtain ⟨passed, hpassed, hlength, hdrop⟩ := newlineFrom?_eq_some hstop
    have hline : newline ∉ held ++ passed := by
      rw [List.mem_append, not_or]
      exact ⟨hfree, hpassed⟩
    have hbytes : bytes.data.toList.drop start =
        held ++ passed ++ newline :: bytes.data.toList.drop (stop + 1) := by
      rw [hheld, hdrop, List.append_assoc]
    have hcut : (bytes.extract start stop).data.toList = held ++ passed := by
      have hsize : stop - start = (held ++ passed).length := by
        rw [List.length_append]
        omega
      rw [toList_extract, hbytes, hsize, List.take_left']
      rfl
    obtain ⟨hlines, hrest⟩ := @ih [] List.not_mem_nil rfl rfl
    rw [hlines, hrest, hbytes, terminated_record hline, unended_append_newline]
    refine ⟨?_, rfl⟩
    rw [Array.toList_push, lineBytes_append, List.append_assoc, ← hcut]
    rfl

namespace LineBuffer

variable (b : LineBuffer) (chunk : ByteArray)

/-- The bytes of the line in progress. -/
def rest : List UInt8 := b.pending.data.toList

/-- The search of a push begins where the pending bytes end, and finds every line. -/
theorem push_cuts (h : newline ∉ b.rest) {lines : Array ByteArray} {start : Nat}
    (hcut : cutLines (b.pending ++ chunk) b.pending.size 0 #[] = (lines, start)) :
    lineBytes lines.toList = terminated (b.rest ++ chunk.data.toList) ∧
      ((b.pending ++ chunk).extract start (b.pending ++ chunk).size).data.toList =
        unended (b.rest ++ chunk.data.toList) := by
  have hbytes : (b.pending ++ chunk).data.toList = b.rest ++ chunk.data.toList :=
    ByteArray.toList_data_append
  have hheld : (b.pending ++ chunk).data.toList.drop 0 =
      b.rest ++ (b.pending ++ chunk).data.toList.drop b.pending.size := by
    rw [List.drop_zero, hbytes]
    exact congrArg (b.rest ++ ·) List.drop_left.symm
  have hcuts := @cutLines_lines (b.pending ++ chunk) b.pending.size 0 #[] b.rest h
    (Nat.zero_add _).symm hheld
  rw [hcut, List.drop_zero, hbytes] at hcuts
  refine ⟨hcuts.1, ?_⟩
  rw [toList_extract, ← hcuts.2, ← hbytes]
  exact List.take_of_length_le (Nat.le_of_eq List.length_drop)

/-- A push gives the lines that are ended by now, and the one in progress if it is too long. -/
theorem push_lines (h : newline ∉ b.rest) :
    (lineBytes (b.push chunk).2, (b.push chunk).1.rest) =
      if b.limit < (unended (b.rest ++ chunk.data.toList)).length then
        (terminated (b.rest ++ chunk.data.toList) ++ [unended (b.rest ++ chunk.data.toList)], [])
      else (terminated (b.rest ++ chunk.data.toList), unended (b.rest ++ chunk.data.toList)) := by
  obtain ⟨⟨lines, start⟩, hcut⟩ :
      ∃ cut, cutLines (b.pending ++ chunk) b.pending.size 0 #[] = cut := ⟨_, rfl⟩
  obtain ⟨hlines, hrest⟩ := b.push_cuts chunk h hcut
  have hsize : ((b.pending ++ chunk).extract start (b.pending ++ chunk).size).size =
      (unended (b.rest ++ chunk.data.toList)).length := by
    rw [← hrest]
    rfl
  unfold push
  simp only [hcut, hsize]
  split
  · simp only [Array.toList_push, lineBytes_append, hlines]
    rw [← hrest]
    rfl
  · simp only [hlines]
    rw [← hrest]
    rfl

/-- What is in progress, and every line given out, has no newline. -/
theorem push_free (h : newline ∉ b.rest) :
    newline ∉ (b.push chunk).1.rest ∧
      ∀ line ∈ lineBytes (b.push chunk).2, newline ∉ line := by
  have hpush := b.push_lines chunk h
  have hunended := newline_not_mem_unended (b.rest ++ chunk.data.toList)
  have hlines : ∀ line ∈ terminated (b.rest ++ chunk.data.toList), newline ∉ line :=
    fun _ hline => newline_not_mem_terminated hline
  split at hpush
  · simp only [Prod.mk.injEq] at hpush
    rw [hpush.1, hpush.2]
    refine ⟨by simp, fun line hline => ?_⟩
    rcases List.mem_append.mp hline with hline | hline
    · exact hlines line hline
    · rw [List.mem_singleton.mp hline]
      exact hunended
  · simp only [Prod.mk.injEq] at hpush
    rw [hpush.1, hpush.2]
    exact ⟨hunended, hlines⟩

/-! ## Chunk after chunk -/

/-- Takes chunks in turn and gives the lines that they complete. -/
def feed (b : LineBuffer) : List ByteArray → LineBuffer × List ByteArray
  | [] => (b, [])
  | c :: chunks => (((b.push c).1.feed chunks).1, (b.push c).2 ++ ((b.push c).1.feed chunks).2)

/-- The lines of chunks taken in turn, with what is left at the end. -/
def drain (b : LineBuffer) (chunks : List ByteArray) : List ByteArray :=
  (b.feed chunks).2 ++ (b.feed chunks).1.takeRemaining.2.toList

theorem feed_append (b : LineBuffer) (x y : List ByteArray) :
    b.feed (x ++ y) =
      (((b.feed x).1.feed y).1, (b.feed x).2 ++ ((b.feed x).1.feed y).2) := by
  induction x generalizing b with
  | nil => rfl
  | cons c x ih => rw [List.cons_append, feed, ih, feed, List.append_assoc]

theorem feed_free {b : LineBuffer} (h : newline ∉ b.rest) (chunks : List ByteArray) :
    newline ∉ (b.feed chunks).1.rest ∧
      ∀ line ∈ lineBytes (b.feed chunks).2, newline ∉ line := by
  induction chunks generalizing b with
  | nil => exact ⟨h, by simp [feed, lineBytes]⟩
  | cons c chunks ih =>
    obtain ⟨hrest, hlines⟩ := b.push_free c h
    obtain ⟨hrest', hlines'⟩ := ih hrest
    refine ⟨hrest', fun line hline => ?_⟩
    rw [feed, lineBytes_append] at hline
    rcases List.mem_append.mp hline with hline | hline
    · exact hlines line hline
    · exact hlines' line hline

theorem takeRemaining_rest (b : LineBuffer) :
    b.takeRemaining.2.map (·.data.toList) = if b.rest = [] then none else some b.rest := by
  have hempty : b.pending.isEmpty = true ↔ b.rest = [] := by
    rw [← List.length_eq_zero_iff, ByteArray.isEmpty, beq_iff_eq]
    rfl
  unfold takeRemaining
  by_cases h : b.rest = []
  · rw [if_pos (hempty.mpr h), if_pos h]
    rfl
  · rw [if_neg (fun he => h (hempty.mp he)), if_neg h]
    rfl

theorem takeRemaining_lines (b : LineBuffer) :
    lineBytes b.takeRemaining.2.toList = if b.rest = [] then [] else [b.rest] := by
  rw [lineBytes, ← Option.toList_map, takeRemaining_rest]
  split <;> rfl

theorem drain_free {b : LineBuffer} (h : newline ∉ b.rest) (chunks : List ByteArray) :
    ∀ line ∈ lineBytes (b.drain chunks), newline ∉ line := by
  obtain ⟨hrest, hlines⟩ := feed_free h chunks
  intro line hline
  rw [drain, lineBytes_append, takeRemaining_lines] at hline
  rcases List.mem_append.mp hline with hline | hline
  · exact hlines line hline
  · split at hline
    · simp at hline
    · rw [List.mem_singleton.mp hline]
      exact hrest

/-- While no line outgrows the limit, the lines are those of all bytes together. -/
theorem feed_lines {b : LineBuffer} (h : newline ∉ b.rest) (chunks : List ByteArray)
    (hshort : ∀ run, run <:+: b.rest ++ (lineBytes chunks).flatten → newline ∉ run →
      run.length ≤ b.limit) :
    lineBytes (b.feed chunks).2 = terminated (b.rest ++ (lineBytes chunks).flatten) ∧
      (b.feed chunks).1.rest = unended (b.rest ++ (lineBytes chunks).flatten) := by
  induction chunks generalizing b with
  | nil => simp [feed, lineBytes, terminated_of_free h, unended_of_free h]
  | cons c chunks ih =>
    have hcons : b.rest ++ (lineBytes (c :: chunks)).flatten =
        b.rest ++ c.data.toList ++ (lineBytes chunks).flatten := by simp [lineBytes]
    rw [hcons] at hshort ⊢
    -- What is pending after the push is a run without newlines, so it stays in the buffer.
    have hpush := b.push_lines c h
    rw [if_neg] at hpush
    · simp only [Prod.mk.injEq] at hpush
      have hrest := (b.push_free c h).1
      obtain ⟨hlines, hleft⟩ := ih hrest fun run hrun hfree => by
        rw [push_limit]
        apply hshort run _ hfree
        refine hrun.trans (List.IsSuffix.isInfix ?_)
        rw [hpush.2]
        obtain ⟨gone, hgone⟩ := unended_suffix (b.rest ++ c.data.toList)
        exact ⟨gone, by rw [← List.append_assoc, hgone]⟩
      rw [feed, lineBytes_append, hlines, hleft, hpush.1, hpush.2, ← terminated_append,
        ← unended_append]
      exact ⟨rfl, rfl⟩
    · rw [Nat.not_lt]
      apply hshort _ _ (newline_not_mem_unended _)
      exact (unended_suffix _).isInfix.trans (List.prefix_append _ _).isInfix

theorem drain_lines {b : LineBuffer} (h : newline ∉ b.rest) (chunks : List ByteArray)
    (hshort : ∀ run, run <:+: b.rest ++ (lineBytes chunks).flatten → newline ∉ run →
      run.length ≤ b.limit) :
    lineBytes (b.drain chunks) =
      terminated (b.rest ++ (lineBytes chunks).flatten) ++
        if unended (b.rest ++ (lineBytes chunks).flatten) = [] then []
        else [unended (b.rest ++ (lineBytes chunks).flatten)] := by
  obtain ⟨hlines, hrest⟩ := feed_lines h chunks hshort
  rw [drain, lineBytes_append, takeRemaining_lines, hlines, hrest]

end LineBuffer

end Overseer.Log
