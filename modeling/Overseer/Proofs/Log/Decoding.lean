import Overseer.Proofs.Log.Lead
import Overseer.Proofs.Log.Streams
import Overseer.Proofs.Log.Suffix

/-! The files of a log decode to what was captured. `readLog_records` reads records back,
`Live.discards_eq_nil` counts the rotations until a file is thrown away; `log_decodes` puts them
together for a writer on an empty directory. -/

namespace Overseer.Log

open RotatingLog (writeAll discarded discards rotations)

/-! ## Reading records back -/

/-- The stream and the line of an emission. -/
def Emission.read (e : Emission) : Stream × List UInt8 := (e.stream, e.line.data.toList)

/-- The bytes that records take in a file. -/
def recordBytes (es : List Emission) : List UInt8 := (es.map fun e => e.record.data.toList).flatten

/-- A record that can be read back: its time takes four digits for the year, its line has no
newline, and a line of the standard output does not look marked. -/
structure Emission.Legible (e : Emission) : Prop where
  now : e.now.FourDigit
  line : newline ∉ e.line.data.toList
  unmarked : e.stream = .stdout → ¬ markerBytes <+: e.line.data.toList

theorem newline_not_mem_mark (stream : Stream) : newline ∉ stream.mark := by
  cases stream with
  | stdout => simp [Stream.mark]
  | stderr =>
    have hfield : Text.IsField 9 (stderrMarker ++ " ") := by decide
    exact hfield.newline_not_mem_bytes

theorem readRecord_stamp {e : Emission} (h : e.Legible) :
    readRecord (stamp e.now ++ e.stream.mark ++ e.line.data.toList) = e.read := by
  have hdrop : (stamp e.now ++ e.stream.mark ++ e.line.data.toList).drop leadLength =
      e.stream.mark ++ e.line.data.toList := by
    rw [List.append_assoc, List.drop_append_of_le_length (Nat.le_of_eq (length_stamp h.now).symm),
      List.drop_of_length_le (Nat.le_of_eq (length_stamp h.now)), List.nil_append]
  rw [readRecord, hdrop, Emission.read]
  cases hs : e.stream with
  | stdout =>
    have hnot : markerBytes.isPrefixOf e.line.data.toList = false := by
      rw [← Bool.not_eq_true, List.isPrefixOf_iff_prefix]
      exact h.unmarked hs
    simp [Stream.mark, hnot]
  | stderr => simp [Stream.mark]

theorem readLog_records {es : List Emission} (h : ∀ e ∈ es, e.Legible) :
    readLog (recordBytes es) = es.map Emission.read := by
  induction es with
  | nil => rfl
  | cons e es ih =>
    have he := h e (by simp)
    have hfree : newline ∉ stamp e.now ++ e.stream.mark ++ e.line.data.toList := by
      simp [newline_not_mem_stamp he.now, newline_not_mem_mark, he.line]
    have hbytes : recordBytes (e :: es) =
        (stamp e.now ++ e.stream.mark ++ e.line.data.toList) ++ newline :: recordBytes es := by
      simp [recordBytes, Emission.record, record_bytes]
    have hrest := ih fun e' he' => h e' (by simp [he'])
    rw [readLog] at hrest
    rw [hbytes, readLog, terminated_record hfree, List.map_cons, readRecord_stamp he, hrest,
      List.map_cons]

/-! ## What is emitted -/

/-- An emission bears a time that the clock told, and its line has no newline. -/
theorem mem_emissions {clock : Nat → Timestamp} {stream : Stream} {lines : List ByteArray}
    {e : Emission} (h : e ∈ emissions clock stream lines) : ∃ i, e.now = clock i := by
  obtain ⟨⟨line, i⟩, -, rfl⟩ := List.mem_map.mp h
  exact ⟨i, rfl⟩

theorem Buffers.now_of_mem_groups {b : Buffers} {chunks : List Chunk} {e : Emission}
    (h : e ∈ (b.groups chunks).flatten) : ∃ c ∈ chunks, ∃ i, e.now = c.clock i := by
  induction chunks generalizing b with
  | nil => simp [groups] at h
  | cons c chunks ih =>
    rw [groups, List.flatten_cons, List.mem_append] at h
    rcases h with h | h
    · exact ⟨c, by simp, mem_emissions h⟩
    · obtain ⟨c', hc', hi⟩ := ih h
      exact ⟨c', by simp [hc'], hi⟩

theorem Buffers.now_of_mem_closing {b : Buffers} {clock : Stream → Timestamp} {e : Emission}
    (h : e ∈ b.closing clock) : ∃ stream, e.now = clock stream := by
  rw [closing, List.mem_append] at h
  rcases h with h | h
  · obtain ⟨-, hnow⟩ := mem_emissions h
    exact ⟨_, hnow⟩
  · obtain ⟨-, hnow⟩ := mem_emissions h
    exact ⟨_, hnow⟩

theorem Buffers.newline_not_mem_emitted {chunks : List Chunk} {clock : Stream → Timestamp}
    {e : Emission} (h : e ∈ new.emitted chunks clock) :
    newline ∉ e.line.data.toList := by
  have hline : e.line ∈ linesOf e.stream (new.emitted chunks clock) :=
    List.mem_map.mpr ⟨e, List.mem_filter.mpr ⟨h, by simp⟩, rfl⟩
  rw [linesOf_emitted] at hline
  apply LineBuffer.drain_free (b := LineBuffer.new) (by simp [new_rest])
    (ofStream e.stream chunks)
  exact List.mem_map.mpr ⟨e.line, hline, rfl⟩

theorem Buffers.legible_of_mem_emitted {chunks : List Chunk} {clock : Stream → Timestamp}
    (hchunks : ∀ c ∈ chunks, ∀ i, (c.clock i).FourDigit) (hclock : ∀ s, (clock s).FourDigit)
    {e : Emission} (h : e ∈ new.emitted chunks clock)
    (hmark : e.stream = .stdout → ¬ markerBytes <+: e.line.data.toList) : e.Legible := by
  refine ⟨?_, newline_not_mem_emitted h, hmark⟩
  rw [emitted, List.mem_append] at h
  rcases h with h | h
  · obtain ⟨c, hc, i, hi⟩ := now_of_mem_groups h
    rw [hi]
    exact hchunks c hc i
  · obtain ⟨stream, hs⟩ := now_of_mem_closing h
    rw [hs]
    exact hclock stream

/-! ## How many rotations until a file is thrown away -/

namespace Shelf

variable {s : Shelf} {t : FileTree} {log : RotatingLog} {record : ByteArray}

/-- While the slots from `k` on are free, a write throws nothing away and fills one more at most. -/
theorem Live.write_free (h : s.Live t log) (honly : s.OnlyFiles log.path log.maxFiles t) {k : Nat}
    (hempty : ∀ i ≤ log.maxFiles, k < i → s.stored log.path t i = none)
    (hk : k + (log.makesRoom t record).toNat ≤ log.maxFiles) :
    discarded log t record = [] ∧
      ∀ i ≤ log.maxFiles, k + (log.makesRoom t record).toNat < i →
        s.stored log.path (log.write t record).tree i = none := by
  cases (h.write_wrote record).1 with
  | added id hroom _ _ hx hheld hcontents =>
    refine ⟨by simp [discarded, hroom], fun i hi hki => ?_⟩
    rw [h.stored_append hx hheld hcontents, set_ne _ _ _ (by omega)]
    exact hempty i hi (by omega)
  | cut id hfull hn _ _ hx hheld hcontents =>
    have hroom : log.makesRoom t record = true := by simp [RotatingLog.makesRoom, hfull, hn]
    rw [hroom, hn] at hk
    exact absurd hk (by simp)
  | shifted hfull hne _ hrotated hheld hcontents =>
    have hroom : log.makesRoom t record = true := by simp [RotatingLog.makesRoom, hrotated]
    rw [hroom] at hk ⊢
    rw [Bool.toNat_true] at hk ⊢
    obtain ⟨n, hn⟩ := Nat.exists_eq_succ_of_ne_zero hne
    have hlast := hempty log.maxFiles (Nat.le_refl _) (by omega)
    refine ⟨?_, fun i hi hki => ?_⟩
    · rw [hn] at hlast
      rw [h.discarded_eq honly hfull hn, hlast]
      simp
    · rw [h.holds.stored_shifted hheld hcontents, set_ne _ _ _ (by omega)]
      obtain ⟨j, rfl⟩ : ∃ j, i = j + 1 := ⟨i - 1, by omega⟩
      have hbelow := hempty j (by omega) (by omega)
      have habove := hempty (j + 1) hi (by omega)
      simp only [Shelf.lifted, hbelow, habove, hlast, Option.or_none, ite_self]
  | stuck id e hfull hne hlast _ hrotated hx hheld hcontents =>
    refine ⟨h.discarded_stuck honly hfull hne hlast, fun i hi hki => ?_⟩
    rw [h.stored_append hx hheld hcontents, set_ne _ _ _ (by omega)]
    exact hempty i hi (by omega)

/-- With one empty file at most, all archives are free. -/
theorem Live.stored_of_few (h : s.Live t log) (honly : s.OnlyFiles log.path log.maxFiles t)
    (hfew : logFiles t log.path log.maxFiles = [] ∨ logFiles t log.path log.maxFiles = [[]]) :
    ∀ i ≤ log.maxFiles, 0 < i → s.stored log.path t i = none := by
  obtain ⟨id, hx, -, -⟩ := h.active
  rw [h.holds.logFiles_eq honly, oldestFirst_active (stored_of_file hx)] at hfew
  have holder : oldestFirst (set (s.stored log.path t) 0 none) log.maxFiles = [] := by
    rcases hfew with hfew | hfew
    · simp at hfew
    · exact (List.append_inj' (hfew.trans (List.nil_append _).symm) rfl).1
  intro i hi hpos
  have := oldestFirst_eq_nil_iff.mp holder i hi
  rwa [set_ne _ _ _ (by omega)] at this

/-- While rotations have not filled the last slot no file is thrown away. -/
theorem Live.discards_eq_nil (h : s.Live t log) (honly : s.OnlyFiles log.path log.maxFiles t)
    (records : List ByteArray) {k : Nat}
    (hempty : ∀ i ≤ log.maxFiles, k < i → s.stored log.path t i = none)
    (hk : k + rotations log t records ≤ log.maxFiles) : discards log t records = [] := by
  induction records generalizing t log k with
  | nil => rfl
  | cons r rest ih =>
    rw [rotations] at hk
    have hfirst : k + (log.makesRoom t r).toNat ≤ log.maxFiles := by omega
    obtain ⟨hgone, hempty'⟩ := h.write_free honly hempty hfirst
    have honly' := (h.write_accepts honly r).1
    have hmax := log.write_maxFiles t r
    rw [← log.write_path t r, ← hmax] at honly' hempty'
    have hrest := ih (h.write_wrote r).2.1 honly' hempty' (by rw [hmax]; omega)
    rw [discards, hgone, hrest, List.nil_append]

end Shelf

/-! ## A writer on an empty directory -/

/-- What is grouped after a map was grouped before. -/
private theorem exists_groups {α β : Type} (f : α → β) {groups : List (List β)} {xs : List α}
    (h : groups.flatten = xs.map f) :
    ∃ groups' : List (List α), groups'.flatten = xs ∧ groups'.map (List.map f) = groups := by
  induction groups generalizing xs with
  | nil => exact ⟨[], by simpa [eq_comm] using h, rfl⟩
  | cons g groups ih =>
    obtain ⟨x, y, rfl, hx, hy⟩ := List.map_eq_append_iff.mp h.symm
    obtain ⟨groups', hflat, hmap⟩ := ih hy.symm
    exact ⟨x :: groups', by rw [List.flatten_cons, hflat], by rw [List.map_cons, hx, hmap]⟩

theorem recordBytes_flatten (groups : List (List Emission)) :
    (groups.map recordBytes).flatten = recordBytes groups.flatten := by
  induction groups with
  | nil => rfl
  | cons g groups ih =>
    rw [List.map_cons, List.flatten_cons, ih, List.flatten_cons, recordBytes, recordBytes,
      recordBytes, List.map_append, List.flatten_append]

theorem logFiles_of_free {t : FileTree} {path : String} {n : Nat} (h : Ready t path n)
    (hslash : path.toList.getLast? ≠ some '/')
    (hfree : ∀ i l m, t.resolve false (slotPath path i) ≠ .ok (.found l m)) :
    logFiles t path n = [] := by
  obtain ⟨s, hholds, honly⟩ := h.holds hslash
  rw [hholds.logFiles_eq honly, oldestFirst_eq_nil_iff]
  intro i hi
  rw [Shelf.stored]
  cases hx : s.held path t i with
  | none => rfl
  | some x => exact absurd (hholds.resolve_held hi false hx) (hfree i _ _)

/-- The files that a writer leaves in an empty directory are made of whole records, and read
oldest first they tell all that was emitted, less what was in files thrown away. -/
theorem log_decodes {t t₀ : FileTree} {path : String} {d : Location} {a : String}
    {maxBytes n : Nat} {log : RotatingLog} (hsound : t.Sound)
    (hthere : t.resolve false path = .ok (.absent d a)) (hempty : t.get? d = some (.dir []))
    (hopen : RotatingLog.openAt t path maxBytes n = (t₀, .ok log))
    (chunks : List Chunk) (clock : Stream → Timestamp)
    (hchunks : ∀ c ∈ chunks, ∀ i, (c.clock i).FourDigit) (hclock : ∀ s, (clock s).FourDigit)
    (hmark : ∀ e ∈ Buffers.new.emitted chunks clock, e.stream = .stdout →
      ¬ markerBytes <+: e.line.data.toList) :
    ∃ (gone : List Emission) (kept : List (List Emission)),
      Buffers.new.emitted chunks clock = gone ++ kept.flatten ∧
      logFiles (Writer.capture t path maxBytes n chunks clock).tree path n =
        kept.map recordBytes ∧
      readLog (logFiles (Writer.capture t path maxBytes n chunks clock).tree path n).flatten =
        kept.flatten.map Emission.read ∧
      (rotations log t₀ ((Buffers.new.emitted chunks clock).map Emission.record) ≤ n →
        gone = []) := by
  have hslash := Placed.getLast?_of_opened ⟨hsound, _, hthere, by simp⟩ hopen
  obtain ⟨hready, hfree⟩ := Ready.of_empty hsound hthere hempty hslash n
  have hnone := logFiles_of_free hready hslash hfree
  have hcapture : Writer.capture t path maxBytes n chunks clock =
      (Writer.fresh path log false).session t₀ chunks clock := by
    rw [Writer.capture, Writer.openAt_fresh hopen]
  have hreceived := Writer.session_received (w := Writer.fresh path log false) rfl t₀ chunks clock
  rw [Writer.fresh_buffer, ← hcapture] at hreceived
  generalize hes : Buffers.new.emitted chunks clock = es at hreceived hmark ⊢
  -- The parts of the files are the records of runs of emissions.
  obtain ⟨parts, hparts, hflat⟩ := hready.writeAll_groups hopen (es.map Emission.record)
  rw [hnone, List.nil_append, List.map_map] at hflat
  obtain ⟨groups, hgroups, hmap⟩ := exists_groups _ hflat
  rw [← hmap, List.map_map] at hparts
  obtain ⟨gone, kept, rfl, hgone, hkept⟩ := List.map_eq_append_iff.mp hparts
  have hfiles : logFiles (Writer.capture t path maxBytes n chunks clock).tree path n =
      kept.map recordBytes := by
    rw [hreceived.tree, ← hkept]
    rfl
  have hlegible : ∀ e ∈ kept.flatten, e.Legible := by
    intro e he
    have hmem : e ∈ es := by
      rw [← hgroups, List.flatten_append]
      exact List.mem_append_right _ he
    exact Buffers.legible_of_mem_emitted hchunks hclock (hes ▸ hmem) (hmark e hmem)
  refine ⟨gone.flatten, kept, by rw [← hgroups, List.flatten_append], hfiles, ?_,
    fun hrotations => ?_⟩
  · rw [hfiles, recordBytes_flatten, readLog_records hlegible]
  · obtain ⟨rfl, rfl, s, hlive, honly, hopened⟩ := hready.opened hopen
    have hdiscards := hlive.discards_eq_nil honly (es.map Emission.record) (k := 0)
      (hlive.stored_of_few honly (by rwa [hnone, List.nil_append] at hopened)) (by omega)
    rw [hdiscards, List.map_eq_nil_iff] at hgone
    rw [hgone]
    rfl

/-- Output of both streams, the last of it without a newline. -/
def sample : List Chunk :=
  [⟨.stdout, "a\n".toUTF8, fun _ => ⟨0, 0⟩⟩, ⟨.stderr, "b".toUTF8, fun _ => ⟨0, 0⟩⟩]

theorem log_decodes_sample :
    ∃ t₀ log, RotatingLog.openAt FileTree.empty "app.log" 30 1 = (t₀, .ok log) ∧
      ∃ (gone : List Emission) (kept : List (List Emission)),
        Buffers.new.emitted sample (fun _ => ⟨0, 0⟩) = gone ++ kept.flatten ∧
        logFiles (Writer.capture FileTree.empty "app.log" 30 1 sample fun _ => ⟨0, 0⟩).tree
          "app.log" 1 = kept.map recordBytes := by
  have hname := Shelf.reached_of_name FileTree.sound_empty "app.log"
    ⟨by decide, by decide, by decide⟩ (by decide) (by decide) (by decide)
  have hthere : FileTree.empty.resolve false "app.log" = .ok (.absent ["work"] "app.log") :=
    (hname.resolve_slot 0 false (by simp)).trans (if_pos hname.fits)
  have hyear : Timestamp.FourDigit ⟨0, 0⟩ := ⟨by decide, by decide, by decide⟩
  have hready := (Ready.of_empty FileTree.sound_empty hthere rfl (by decide) 1).1
  obtain ⟨t₀, log, hopen⟩ := hready.exists_opened (by decide) 30 1
  have hchunks : ∀ c ∈ sample, ∀ i, (c.clock i).FourDigit := by
    intro c hc i
    rcases List.mem_cons.mp hc with rfl | hc
    · exact hyear
    · rw [List.mem_singleton.mp hc]
      exact hyear
  obtain ⟨gone, kept, hall, hfiles, -⟩ := log_decodes FileTree.sound_empty hthere rfl hopen sample
    (fun _ => ⟨0, 0⟩) hchunks (fun _ => hyear) (by decide +kernel)
  exact ⟨t₀, log, hopen, gone, kept, hall, hfiles⟩

end Overseer.Log
