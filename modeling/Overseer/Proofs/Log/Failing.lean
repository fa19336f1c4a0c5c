import Overseer.Proofs.Log.Contents
import Overseer.Proofs.Log.Siting
import Overseer.Proofs.Log.Warnings

/-! Writes that fail. `Live.write_fails_iff` says when, `Live.unharmed` that nothing is lost then,
and `failed_writes_harmless` follows a log and its writer from the open on. -/

namespace Overseer.Log

open RotatingLog (Outcome writeAll)

/-- What a failed write leaves behind: the archives as they were, the record at the end of the
active file, and a log that knows how long this file is. -/
structure Unharmed (t : FileTree) (log : RotatingLog) (record : ByteArray) (o : Outcome) :
    Prop where
  archives : ∀ i, 1 ≤ i → i ≤ log.maxFiles → SameAt t o.tree (slotPath log.path i)
  active : ∃ old, t.readFile log.path = .ok old ∧
    o.tree.readFile log.path = .ok (old ++ record) ∧ o.log.size = (old ++ record).size

/-- A record stands at the end of the active file, alone or after all that was there. -/
def Lands (path : String) (record : ByteArray) (t t' : FileTree) : Prop :=
  ∃ older, (older = .empty ∨ t.readFile path = .ok older) ∧
    t'.readFile path = .ok (older ++ record)

namespace Shelf

variable {s : Shelf} {t : FileTree} {base : String} {n : Nat} {log : RotatingLog}
  {record : ByteArray}

/-- What is written to the active file does not show in the archives. -/
theorem Holds.sameAt_append (h : s.Holds t base n) {id : Nat}
    (hx : s.held base t 0 = some (.file id)) {i : Nat} (hi : i ≤ n) (hne : i ≠ 0) :
    SameAt t (t.append id record) (slotPath base i) := by
  refine ⟨rfl, fun l m hm r k hk => FileTree.bytes_append_ne t record ?_⟩
  rintro rfl
  -- A file with this number would be below the archive's slot, but the active file is in slot 0.
  have hbelow : t.root.kindAt (s.slot i ++ r) = some (.file k) := by
    rw [Node.kindAt, Node.get?_append, get?_of_held (h.held_of_found hi hm).1]
    exact hk
  have hactive := Node.kindAt_eq_file_iff.mpr (get?_of_held hx)
  exact s.not_slot_below hne ⟨r, h.intact.alone _ _ k hbelow hactive⟩

theorem Live.readFile_active (h : s.Live t log) :
    ∃ old, t.readFile log.path = .ok old ∧ log.size = old.size := by
  obtain ⟨id, hx, -, hsize⟩ := h.active
  exact ⟨t.bytes id, h.holds.readFile_slot (Nat.zero_le _) hx, hsize⟩

/-! ## When a write fails -/

/-- A write fails just if it calls for a rotation while a directory stands in the last slot and
something is to move there. -/
theorem Live.write_fails_iff (h : s.Live t log) (hn : log.maxFiles = n + 1)
    (hfits : ∀ i ≤ n + 1, s.Fits log.path i) (record : ByteArray) :
    (∃ e, (log.write t record).result = .error e) ↔
      log.isFullFor record.size = true ∧ t.isDir (slotPath log.path (n + 1)) = true ∧
        t.pathExists (slotPath log.path n) = true := by
  rw [h.write_result, h.holds.isDir_slot (by omega), h.holds.pathExists_slot (by omega),
    hn]
  cases log.isFullFor record.size with
  | false => simp
  | true =>
    simp only [↓reduceIte, true_and]
    rw [raise_error_iff hfits, and_comm]

/-! ## What a failed write does -/

theorem Live.unharmed (h : s.Live t log) (hne : log.maxFiles ≠ 0) {e : FileError}
    (he : (log.write t record).result = .error e) : Unharmed t log record (log.write t record) := by
  obtain ⟨id, hx, -, -⟩ := h.active
  rw [h.write_result] at he
  cases hfull : log.isFullFor record.size with
  | false => simp [hfull] at he
  | true =>
    rw [hfull, if_pos rfl] at he
    rw [h.write_failed hfull hne he hx]
    have happend := FileTree.bytes_append_self t record (h.holds.id_lt hx)
    refine ⟨fun i hi hin => h.holds.sameAt_append hx hin (by omega), t.bytes id,
      h.holds.readFile_slot (Nat.zero_le _) hx, ?_, ?_⟩
    · rw [← happend]
      exact (h.holds.append id record).readFile_slot (Nat.zero_le _) hx
    · rw [ByteArray.size_append]
      rfl

/-- Whether a write fails or not, its record is in the active file afterwards. -/
theorem Live.write_lands (h : s.Live t log) (record : ByteArray) :
    Lands log.path record t (log.write t record).tree := by
  obtain ⟨hwrote, hlive, -⟩ := h.write_wrote record
  have hread : ∀ {id : Nat}, s.held log.path (log.write t record).tree 0 = some (.file id) →
      (log.write t record).tree.readFile log.path =
        .ok ((log.write t record).tree.bytes id) := by
    intro id hx
    have hholds := hlive.holds
    rw [RotatingLog.write_path, RotatingLog.write_maxFiles] at hholds
    exact hholds.readFile_slot (Nat.zero_le _) hx
  have hbytes : ∀ {t' : FileTree}, (log.write t record).tree.contents = t'.contents → ∀ id,
      (log.write t record).tree.bytes id = t'.bytes id := by
    intro t' hcontents id
    rw [FileTree.bytes, FileTree.bytes, hcontents]
  -- A record added to the file that was active before.
  have hadded : ∀ {id : Nat}, s.held log.path t 0 = some (.file id) →
      s.held log.path (log.write t record).tree = s.held log.path t →
      (log.write t record).tree.contents = (t.append id record).contents →
      Lands log.path record t (log.write t record).tree := by
    intro id hx hheld hcontents
    refine ⟨t.bytes id, Or.inr (h.holds.readFile_slot (Nat.zero_le _) hx), ?_⟩
    rw [hread (by rw [hheld]; exact hx), hbytes hcontents,
      FileTree.bytes_append_self t record (h.holds.id_lt hx)]
  cases hwrote with
  | added id _ _ _ hx hheld hcontents => exact hadded hx hheld hcontents
  | cut id _ _ _ _ hx hheld hcontents =>
    refine ⟨.empty, Or.inl rfl, ?_⟩
    rw [hread (by rw [hheld]; exact hx), hbytes hcontents,
      FileTree.bytes_append_self _ record ((h.holds.truncate id).id_lt hx),
      FileTree.bytes_truncate_self]
  | shifted _ _ _ _ hheld hcontents =>
    refine ⟨.empty, Or.inl rfl, ?_⟩
    rw [hread (by rw [hheld, set_self]), FileTree.bytes, hcontents]
    simp
  | stuck id _ _ _ _ _ _ hx hheld hcontents => exact hadded hx hheld hcontents

end Shelf

/-! ## From the open on -/

/-- A log with archives, none of whose slots is too far to reach, is not harmed by directories in
them. After any run of writes it knows the length of its active file, and a further write fails
just if it calls for a rotation while a directory stands in the last slot and something is to move
there; then nothing changes but for the record at the end of the active file. A writer gets each of
its records into the active file and warns once at most. No file has a second name (a hard link). -/
theorem failed_writes_harmless {t t₀ : FileTree} {path : String} {maxBytes n : Nat}
    {log : RotatingLog} (h : Sited t path (n + 1))
    (hwithin : ∀ i ≤ n + 1, t.resolve false (slotPath path i) ≠ .error .nameTooLong)
    (hopen : RotatingLog.openAt t path maxBytes (n + 1) = (t₀, .ok log)) :
    (∀ records t' log', writeAll log t₀ records = (t', log') →
      (∃ bytes, t'.readFile path = .ok bytes ∧ log'.size = bytes.size) ∧
      ∀ record,
        ((∃ e, (log'.write t' record).result = .error e) ↔
          log'.isFullFor record.size = true ∧ t'.isDir (slotPath path (n + 1)) = true ∧
            t'.pathExists (slotPath path n) = true) ∧
        ∀ e, (log'.write t' record).result = .error e →
          Unharmed t' log' record (log'.write t' record)) ∧
    Writer.Received log t₀ [] (Writer.openAt t path maxBytes (n + 1)).tree
      (Writer.openAt t path maxBytes (n + 1)).writer ∧
    (∀ records t' w events now stream line, Writer.Received log t₀ records t' w →
      Writer.Received log t₀ (records ++ [record now stream line])
          (Writer.emit now stream line ⟨t', w, events⟩).tree
          (Writer.emit now stream line ⟨t', w, events⟩).writer ∧
        Lands path (record now stream line) t' (Writer.emit now stream line ⟨t', w, events⟩).tree) ∧
    ∀ chunks clock,
      Writer.Received log t₀ ((Buffers.new.emitted chunks clock).map Emission.record)
          (Writer.capture t path maxBytes (n + 1) chunks clock).tree
          (Writer.capture t path maxBytes (n + 1) chunks clock).writer ∧
        warnings (Writer.lifeReports t path maxBytes (n + 1) chunks clock) ≤ 1 := by
  obtain ⟨rfl, hmax, s, hlive, hholds⟩ := h.opened hopen
  have hfits : ∀ i ≤ n + 1, s.Fits log.path i := by
    intro i hi
    by_cases hfit : s.Fits log.path i
    · exact hfit
    · exact absurd (hholds.resolve_unfit hi false hfit) (hwithin i hi)
  refine ⟨fun records t' log' hrun => ?_, ?_, fun records t' w events now stream line hw => ?_,
    fun chunks clock => ⟨?_, Writer.warnings_life_le _ _ _ _ _ _⟩⟩
  · obtain ⟨hlive', hpath, hmax'⟩ := hlive.writeAll_live records
    rw [hrun] at hlive' hpath hmax'
    simp only at hlive' hpath hmax'
    rw [← hpath] at hfits ⊢
    exact ⟨hlive'.readFile_active, fun record =>
      ⟨hlive'.write_fails_iff (hmax'.trans hmax) hfits record, fun e he =>
        hlive'.unharmed (by omega) he⟩⟩
  · rw [Writer.openAt_fresh hopen]
    exact ⟨rfl, rfl⟩
  · obtain ⟨hlive', hpath, -⟩ := hlive.writeAll_live records
    have hnext := (hw.emit now stream line events).1
    refine ⟨hnext, ?_⟩
    have hlands := hlive'.write_lands (record now stream line)
    rw [hpath] at hlands
    rw [hnext.tree, hw.tree, RotatingLog.writeAll_append]
    exact hlands
  · rw [Writer.capture, Writer.openAt_fresh hopen]
    have hreceived := Writer.session_received (w := Writer.fresh log.path log false) rfl t₀ chunks
      clock
    rw [Writer.fresh_buffer] at hreceived
    exact hreceived

/-- A log of one archive, whose place is taken by a directory. -/
def barred : FileTree :=
  ((FileTree.empty.create ["work", "app.log"]).1.append 0 "old\n".toUTF8).put
    ["work", "app.1.log"] (some (.dir []))

def barredLog : RotatingLog := ⟨"app.log", 4, 1, some 0, 4⟩

theorem barred_sound : barred.Sound := by
  have hactive := (FileTree.sound_empty.create (d := ["work"]) (a := "app.log") rfl rfl).append 0
    "old\n".toUTF8
  exact hactive.put_new (d := ["work"]) (a := "app.1.log") rfl rfl Node.distinct_empty
    Node.kindAt_empty_ne_file

theorem barred_reached :
    (⟨[], "app.log".toList, barred.working⟩ : Shelf).Reached (barred.root.kindAt · = some ·)
      barred.working "app.log" :=
  Shelf.reached_of_name barred_sound "app.log" ⟨by decide, by decide, by decide⟩ (by decide)
    (by decide) (by decide)

theorem resolve_barred (follow : Bool) :
    barred.resolve follow (slotPath "app.log" 0) = .ok (.found ["work", "app.log"] (.file 0)) ∧
      barred.resolve follow (slotPath "app.log" 1) =
        .ok (.found ["work", "app.1.log"] (.dir [])) := by
  constructor
  · rw [barred_reached.resolve_slot 0 follow]
    · rfl
    · rintro _ target _ ⟨⟩
  · rw [barred_reached.resolve_slot 1 follow]
    · rfl
    · rintro _ target _ ⟨⟩

theorem barred_sited : Sited barred "app.log" 1 := by
  refine Sited.of_name barred_sound barred_reached ?_ ?_
  · rintro x ⟨⟩
    exact ⟨0, rfl⟩
  · intro i hi target
    match i, hi with
    | 0, _ => rintro ⟨⟩
    | 1, _ => rintro ⟨⟩

theorem barred_within :
    ∀ i ≤ 1, barred.resolve false (slotPath "app.log" i) ≠ .error .nameTooLong := by
  obtain ⟨hactive, harchive⟩ := resolve_barred false
  intro i hi
  match i, hi with
  | 0, _ => rw [hactive]; rintro ⟨⟩
  | 1, _ => rw [harchive]; rintro ⟨⟩

theorem barred_opened : RotatingLog.openAt barred "app.log" 4 1 = (barred, .ok barredLog) := by
  have hactive : barred.resolve true "app.log" = _ := (resolve_barred true).1
  rw [RotatingLog.openAt, barred_reached.makeParent]
  simp only [FileTree.openAppend, hactive]
  rfl

theorem failed_writes_harmless_barred :
    Sited barred "app.log" 1 ∧
      (∀ i ≤ 1, barred.resolve false (slotPath "app.log" i) ≠ .error .nameTooLong) ∧
      RotatingLog.openAt barred "app.log" 4 1 = (barred, .ok barredLog) ∧
      (∃ e, (barredLog.write barred "newer\n".toUTF8).result = .error e) ∧
      Unharmed barred barredLog "newer\n".toUTF8 (barredLog.write barred "newer\n".toUTF8) := by
  obtain ⟨hwrites, -⟩ := failed_writes_harmless barred_sited barred_within barred_opened
  obtain ⟨hfails, hunharmed⟩ := (hwrites [] barred barredLog rfl).2 "newer\n".toUTF8
  have hdir : barred.isDir (slotPath "app.log" 1) = true := by
    rw [FileTree.isDir, (resolve_barred true).2]
    rfl
  have hthere : barred.pathExists (slotPath "app.log" 0) = true := by
    rw [FileTree.pathExists, (resolve_barred true).1]
  have hfailed := hfails.mpr ⟨rfl, hdir, hthere⟩
  obtain ⟨e, he⟩ := hfailed
  exact ⟨barred_sited, barred_within, barred_opened, ⟨e, he⟩, hunharmed e he⟩

/-! ## A path through an archive's place -/

/-- A log of two archives whose path leads through the first one's place, where a directory
stands. -/
def winding : FileTree :=
  ⟨.dir [("work", .dir [("a.1", .dir []), ("a", .file 0)])], #["old\n".toUTF8], ["work"]⟩

def windingLog : RotatingLog := ⟨"a.1/../a", 4, 2, some 0, 4⟩

/-- What is left when the directory has moved on: the path leads to nothing. -/
def severed : FileTree :=
  { winding with root := .dir [("work", .dir [("a", .file 0), ("a.2", .dir [])])] }

theorem resolve_winding (follow : Bool) :
    winding.resolve follow "a.1/../a" = .ok (.found ["work", "a"] (.file 0)) ∧
      winding.resolve follow "a.1/../a.1" = .ok (.found ["work", "a.1"] (.dir [])) ∧
      winding.resolve follow "a.1/../a.2" = .ok (.absent ["work"] "a.2") ∧
      winding.resolve follow "a.1/.." =
        .ok (.found ["work"] (.dir [("a.1", .dir []), ("a", .file 0)])) ∧
      severed.resolve follow "a.1/../a" = .error .notFound := by
  refine ⟨?_, ?_, ?_, ?_, ?_⟩ <;>
    simp +decide [FileTree.resolve, severed, winding, Path.pieces, FileTree.walk, Node.get?,
      Node.entries, List.lookup_cons]

theorem winding_opened (maxBytes : Nat) :
    RotatingLog.openAt winding "a.1/../a" maxBytes 2 =
      (winding, .ok ⟨"a.1/../a", maxBytes, 2, some 0, 4⟩) := by
  obtain ⟨hbase, -, -, hparent, -⟩ := resolve_winding true
  have hmade : RotatingLog.makeParent winding "a.1/../a" = (winding, .ok ()) :=
    FileTree.makeDirs_of_found hparent (resolve_winding false).2.2.2.1
  rw [RotatingLog.openAt, hmade]
  simp only [FileTree.openAppend, hbase]
  rfl

theorem shift_winding : RotatingLog.shift winding "a.1/../a" 2 = (severed, .ok ()) := by
  obtain ⟨-, hone, -, -, hgone⟩ := resolve_winding true
  obtain ⟨-, hone', htwo', -⟩ := resolve_winding false
  have hslots : slotPath "a.1/../a" 1 = "a.1/../a.1" ∧ slotPath "a.1/../a" 2 = "a.1/../a.2" :=
    ⟨rfl, rfl⟩
  have hclear : RotatingLog.clearSlot winding "a.1/../a.2" = .ok winding := by
    rw [RotatingLog.clearSlot, FileTree.removeFile, htwo']
    rfl
  have hrename : winding.rename "a.1/../a.1" "a.1/../a.2" = .ok severed := by
    rw [FileTree.rename, hone', htwo']
    rfl
  rw [RotatingLog.shift, hslots.1, hslots.2, FileTree.pathExists, hone]
  simp only [↓reduceIte, hclear, hrename]
  rw [RotatingLog.shift, slotPath, FileTree.pathExists, hgone]
  rfl

/-- A write that needs room there moves the directory on, so that nothing can be opened. -/
theorem write_winding {log : RotatingLog} {record : ByteArray} (hpath : log.path = "a.1/../a")
    (hfiles : log.maxFiles = 2) (hfull : log.isFullFor record.size = true) :
    log.write winding record = ⟨severed, { log with handle := none }, .error .notFound, false⟩ := by
  have hopen : severed.openAppend "a.1/../a" = .error .notFound := by
    rw [FileTree.openAppend, (resolve_winding true).2.2.2.2]
    rfl
  have hrotate : log.rotate winding = (severed, { log with handle := none }, .error .notFound) := by
    have hshift : RotatingLog.shift winding log.path log.maxFiles = (severed, .ok ()) := by
      rw [hpath, hfiles]
      exact shift_winding
    rw [RotatingLog.rotate, if_neg (by rw [hfiles]; decide)]
    simp only [hshift, RotatingLog.reopen]
    rw [hpath, hopen]
  rw [RotatingLog.write, hfull]
  simp only [↓reduceIte, hrotate, RotatingLog.reopen, hpath, hopen]
  rfl

/-- The path of a log must not lead through its slots: here the last slot is free, and a write
fails all the same and loses its record. -/
theorem winding_write_fails :
    RotatingLog.openAt winding "a.1/../a" 4 2 = (winding, .ok windingLog) ∧
      (∀ i ≤ 2, ∀ l target,
        winding.resolve false (slotPath "a.1/../a" i) ≠ .ok (.found l (.link target))) ∧
      winding.isDir (slotPath "a.1/../a" 2) = false ∧
      (windingLog.write winding "newer\n".toUTF8).result = .error .notFound ∧
      (windingLog.write winding "newer\n".toUTF8).tree.contents = winding.contents := by
  obtain ⟨hbase, hone, htwo, -⟩ := resolve_winding false
  refine ⟨winding_opened 4, ?_, ?_, ?_, ?_⟩
  · intro i hi l target
    match i, hi with
    | 0, _ => rw [slotPath, hbase]; rintro ⟨⟩
    | 1, _ => rw [show slotPath "a.1/../a" 1 = "a.1/../a.1" from rfl, hone]; rintro ⟨⟩
    | 2, _ => rw [show slotPath "a.1/../a" 2 = "a.1/../a.2" from rfl, htwo]; rintro ⟨⟩
  · rw [show slotPath "a.1/../a" 2 = "a.1/../a.2" from rfl, FileTree.isDir,
      (resolve_winding true).2.2.1]
  · rw [write_winding rfl rfl rfl]
  · rw [write_winding rfl rfl rfl]
    rfl

end Overseer.Log
