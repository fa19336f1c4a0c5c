import Overseer.Proofs.Log.Fresh
import Overseer.Proofs.Log.Restart

/-! How long the files of a log grow. `InUse.write` says what one write leaves in which file,
`InUse.writeAll` bounds all files that a run makes, and `file_sizes_bounded` says so of a log from
when it is opened, wherever its path leads. -/

namespace Overseer.Log

/-- A log with an open file, the only one that its path may lead to. -/
structure WritesTo (t : FileTree) (log : RotatingLog) (id : Nat) : Prop where
  handle : log.handle = some id
  only : ∀ l m, t.resolve true log.path = .ok (.found l m) → m = .file id

/-- Such a log in use. Nothing is asked of its slots or of the way to them. -/
structure InUse (t : FileTree) (log : RotatingLog) (id : Nat) : Prop extends WritesTo t log id where
  intact : t.Intact
  named : ∃ above name, Named log.path above name
  stored : id < t.contents.size
  size : log.size = t.size id

/-- What a write leaves: one file, the open one or a new one, has changed, and is then not too long
or holds the record alone; all others are as they were. -/
structure Landed (t : FileTree) (id maxBytes : Nat) (record : ByteArray) (t' : FileTree)
    (id' : Nat) : Prop where
  fresh : id' = id ∨ t.contents.size ≤ id'
  grows : t.contents.size ≤ t'.contents.size
  others : ∀ j, j ≠ id' → t'.bytes j = t.bytes j
  landed : (t'.bytes id').size ≤ maxBytes ∨ t'.bytes id' = record

variable {t t' t₀ : FileTree} {log log' : RotatingLog} {id maxBytes n : Nat} {path : String}

/-! ## One write -/

/-- A rotation that fails makes its write fail. -/
theorem rotate_ok_of_write {record : ByteArray} (hfull : log.isFullFor record.size = true)
    (hok : (log.write t record).result = .ok ()) : (log.rotate t).2.2 = .ok () := by
  rcases hrotate : log.rotate t with ⟨t', log', rotation⟩
  simp only [RotatingLog.write, hfull, ↓reduceIte, hrotate] at hok
  split at hok
  · cases hok
  · exact hok

/-- A log that opens is in use. -/
theorem InUse.opened (hsound : t.Sound)
    (hopen : RotatingLog.openAt t path maxBytes n = (t₀, .ok log)) : ∃ id, InUse t₀ log id := by
  have hmade := RotatingLog.makeParent_sound hsound path
  unfold RotatingLog.openAt at hopen
  split at hopen
  · cases hopen
  · next t₁ hparent =>
    rw [hparent] at hmade
    split at hopen
    · cases hopen
    · next t₂ id happend =>
      cases hopen
      obtain ⟨hintact, hstored, honly, -⟩ := hmade.intact.openAppend happend
      exact ⟨id, ⟨rfl, honly⟩, hintact, exists_named hmade happend, hstored, rfl⟩

namespace InUse

theorem append (h : InUse t log id) (record : ByteArray) :
    log.appendRecord t record =
        (t.append id record, { log with size := log.size + record.size }) ∧
      InUse (t.append id record) { log with size := log.size + record.size } id := by
  refine ⟨by rw [RotatingLog.appendRecord, h.handle], ⟨h.handle, h.only⟩,
    h.intact.append id record, h.named, by simpa [FileTree.append] using h.stored, ?_⟩
  show log.size + record.size = ((t.append id record).bytes id).size
  rw [FileTree.bytes_append_self t record h.stored, ByteArray.size_append, h.size]
  rfl

/-- A file that is empty holds a record alone once that is added. -/
theorem append_empty (h : InUse t log id) (hempty : t.bytes id = .empty) (record : ByteArray) :
    (t.append id record).bytes id = record := by
  rw [FileTree.bytes_append_self t record h.stored, hempty, ByteArray.empty_append]

theorem append_landed (h : InUse t log id) (record : ByteArray)
    (hfit : t.bytes id = .empty ∨ t.size id + record.size ≤ maxBytes) :
    Landed t id maxBytes record (t.append id record) id where
  fresh := .inl rfl
  grows := by simp [FileTree.append]
  others j hj := FileTree.bytes_append_ne t record hj
  landed := by
    rcases hfit with hempty | hfit
    · exact .inr (h.append_empty hempty record)
    · left
      rw [FileTree.bytes_append_self t record h.stored, ByteArray.size_append]
      exact hfit

/-- With room there is no rotation, and a file without room is not empty. -/
theorem write_room (h : InUse t log id) {record : ByteArray}
    (hroom : log.isFullFor record.size = false) :
    InUse (log.write t record).tree (log.write t record).log id ∧
      Landed t id log.maxBytes record (log.write t record).tree id := by
  obtain ⟨happend, huse⟩ := h.append record
  rw [Shelf.write_of_room hroom h.handle, happend]
  refine ⟨huse, h.append_landed record ?_⟩
  rw [RotatingLog.isFullFor, h.size, Bool.and_eq_false_iff, decide_eq_false_iff_not,
    decide_eq_false_iff_not] at hroom
  rcases hroom with hzero | hroom
  · left
    exact ByteArray.size_eq_zero_iff.mp (by simpa [FileTree.size] using hzero)
  · exact .inr (Nat.not_lt.mp hroom)

/-- After a rotation the record is added to a file that was empty. -/
theorem write_full (h : InUse t' log' id) {record : ByteArray}
    (hfull : log.isFullFor record.size = true) (hrotate : log.rotate t = (t', log', .ok ()))
    (hempty : t'.bytes id = .empty) (maxBytes : Nat) :
    InUse (log.write t record).tree (log.write t record).log id ∧
      Landed t' id maxBytes record (log.write t record).tree id := by
  obtain ⟨happend, huse⟩ := h.append record
  have hopen : (if log'.handle.isNone then log'.reopen t' else (t', log', .ok ())) =
      (t', log', .ok ()) := by
    rw [h.handle]
    rfl
  rw [Shelf.write_of_full hfull hrotate hopen, happend]
  exact ⟨huse, h.append_landed record (.inl hempty)⟩

/-- Without archives the file is cut to the record. -/
theorem write_cut (h : InUse t log id) {record : ByteArray}
    (hfull : log.isFullFor record.size = true) (hnone : log.maxFiles = 0) :
    InUse (log.write t record).tree (log.write t record).log id ∧
      Landed t id log.maxBytes record (log.write t record).tree id := by
  have hrotate : log.rotate t = (t.truncate id, { log with size := 0 }, .ok ()) := by
    simp only [RotatingLog.rotate, hnone, ↓reduceIte, h.handle]
  have hcut : InUse (t.truncate id) { log with size := 0 } id :=
    ⟨⟨h.handle, h.only⟩, h.intact.truncate id, h.named,
      by simpa [FileTree.truncate] using h.stored, (t.size_truncate_self id).symm⟩
  obtain ⟨huse, hlanded⟩ :=
    hcut.write_full hfull hrotate (t.bytes_truncate_self id) log.maxBytes
  refine ⟨huse, .inl rfl, ?_, fun j hj => ?_, hlanded.landed⟩
  · exact Nat.le_trans (by simp [FileTree.truncate]) hlanded.grows
  · exact (hlanded.others j hj).trans (t.bytes_truncate_ne hj)

/-- With archives the record stands alone in a new file. -/
theorem write_rotated (h : InUse t log id) {record : ByteArray}
    (hfull : log.isFullFor record.size = true) (hn : log.maxFiles ≠ 0)
    (hok : (log.write t record).result = .ok ()) :
    InUse (log.write t record).tree (log.write t record).log t.contents.size ∧
      Landed t id log.maxBytes record (log.write t record).tree t.contents.size := by
  obtain ⟨above, name, hnamed⟩ := h.named
  obtain ⟨t', log', hrotate⟩ : ∃ t' log', log.rotate t = (t', log', .ok ()) :=
    ⟨_, _, Prod.ext rfl (Prod.ext rfl (rotate_ok_of_write hfull hok))⟩
  obtain ⟨hintact, hcontents, rfl, honly⟩ := hnamed.rotate_fresh h.intact hn hrotate
  have hempty : t'.bytes t.contents.size = .empty := by simp [FileTree.bytes, hcontents]
  have hnew : InUse t' { log with handle := some t.contents.size, size := 0 } t.contents.size :=
    ⟨⟨rfl, honly⟩, hintact, h.named, by simp [hcontents], by rw [FileTree.size, hempty]; rfl⟩
  obtain ⟨huse, hlanded⟩ := hnew.write_full hfull hrotate hempty log.maxBytes
  refine ⟨huse, .inr (Nat.le_refl _), ?_, fun j hj => ?_, hlanded.landed⟩
  · exact Nat.le_trans (by simp [hcontents]) hlanded.grows
  · rw [hlanded.others j hj]
    simp only [FileTree.bytes, hcontents, Array.getD_eq_getD_getElem?, Array.getElem?_push,
      if_neg hj]

/-- A write that succeeds leaves the log in use. -/
theorem write (h : InUse t log id) {record : ByteArray}
    (hok : (log.write t record).result = .ok ()) :
    ∃ id', InUse (log.write t record).tree (log.write t record).log id' ∧
      Landed t id log.maxBytes record (log.write t record).tree id' := by
  cases hfull : log.isFullFor record.size with
  | false => exact ⟨id, h.write_room hfull⟩
  | true =>
    by_cases hn : log.maxFiles = 0
    · exact ⟨id, h.write_cut hfull hn⟩
    · exact ⟨t.contents.size, h.write_rotated hfull hn hok⟩

end InUse

/-- What the path of a log reads is its open file. -/
theorem WritesTo.readFile_eq (h : WritesTo t log id) {data : ByteArray}
    (hread : t.readFile log.path = .ok data) : data = t.bytes id := by
  unfold FileTree.readFile at hread
  cases hres : t.resolve true log.path with
  | error e => simp [hres, bind, Except.bind] at hread
  | ok target =>
    cases target with
    | absent d a => simp [hres, bind, Except.bind] at hread
    | found l m =>
      obtain rfl := h.only l m hres
      simp only [hres, bind, Except.bind, Except.ok.injEq] at hread
      exact hread.symm

/-! ## A run of writes -/

/-- The file is the one that was open at first, or is new since then. -/
def Made (t₀ : FileTree) (base j : Nat) : Prop := j = base ∨ t₀.contents.size ≤ j

/-- What some records written since `t₀` leave: each file that they went to is not too long, holds
one of them alone, or holds what the open file held at first; all others are as they were. -/
structure Grown (t₀ : FileTree) (base maxBytes : Nat) (written : List ByteArray) (t : FileTree) :
    Prop where
  grows : t₀.contents.size ≤ t.contents.size
  bounded : ∀ j, Made t₀ base j →
    (t.bytes j).size ≤ maxBytes ∨ t.bytes j ∈ written ∨ t.bytes j = t₀.bytes base
  kept : ∀ j, ¬ Made t₀ base j → t.bytes j = t₀.bytes j

theorem grown_refl (t₀ : FileTree) (base maxBytes : Nat) : Grown t₀ base maxBytes [] t₀ where
  grows := Nat.le_refl _
  bounded j hj := by
    rcases hj with rfl | hj
    · exact .inr (.inr rfl)
    · left
      simp [FileTree.bytes, Array.getElem?_eq_none hj]
  kept _ _ := rfl

theorem Grown.write {base id' : Nat} {written : List ByteArray} {record : ByteArray}
    (h : Grown t₀ base maxBytes written t) (hid : Made t₀ base id)
    (hwrite : Landed t id maxBytes record t' id') :
    Grown t₀ base maxBytes (written ++ [record]) t' ∧ Made t₀ base id' := by
  have hid' : Made t₀ base id' := by
    rcases hwrite.fresh with rfl | hnew
    · exact hid
    · exact .inr (Nat.le_trans h.grows hnew)
  refine ⟨⟨Nat.le_trans h.grows hwrite.grows, fun j hj => ?_, fun j hj => ?_⟩, hid'⟩
  · by_cases hlanded : j = id'
    · subst hlanded
      rcases hwrite.landed with hle | hrecord
      · exact .inl hle
      · exact .inr (.inl (by simp [hrecord]))
    · rw [hwrite.others j hlanded]
      rcases h.bounded j hj with hle | hrecord | hbase
      · exact .inl hle
      · exact .inr (.inl (List.mem_append_left _ hrecord))
      · exact .inr (.inr hbase)
  · have hother : j ≠ id' := by
      rintro rfl
      exact hj hid'
    rw [hwrite.others j hother, h.kept j hj]

theorem InUse.writeAll {base : Nat} {written records : List ByteArray} (h : InUse t log id)
    (hgrown : Grown t₀ base log.maxBytes written t) (hid : Made t₀ base id)
    (hok : ∀ r ∈ log.results t records, r = .ok ()) :
    ∃ id', InUse (log.writeAll t records).1 (log.writeAll t records).2 id' ∧
      Grown t₀ base log.maxBytes (written ++ records) (log.writeAll t records).1 ∧
      Made t₀ base id' := by
  induction records generalizing t log id written with
  | nil =>
    rw [List.append_nil]
    exact ⟨id, h, hgrown, hid⟩
  | cons r rest ih =>
    rw [RotatingLog.results, List.forall_mem_cons] at hok
    obtain ⟨id₁, huse, hlanded⟩ := h.write hok.1
    obtain ⟨hgrown₁, hid₁⟩ := hgrown.write hid hlanded
    have hmax : (log.write t r).log.maxBytes = log.maxBytes :=
      congrArg (·.2.1) (log.write_settings t r)
    rw [← hmax] at hgrown₁
    obtain ⟨id', huse', hgrown', hid'⟩ := ih huse hgrown₁ hid₁ hok.2
    rw [hmax, List.append_assoc] at hgrown'
    exact ⟨id', huse', hgrown', hid'⟩

/-- After any writes of which none failed, the active file is not too long or holds the last record
alone. Every file that the log made or moved away since it was opened, now an archive or gone, is
not too long, holds one record alone or holds what the active file held at first; all other files
have the bytes that they had. No file has a second name (a hard link). -/
theorem file_sizes_bounded (hsound : t.Sound)
    (hopen : RotatingLog.openAt t path maxBytes n = (t₀, .ok log)) {records : List ByteArray}
    {record : ByteArray} (hok : ∀ r ∈ log.results t₀ (records ++ [record]), r = .ok ())
    (hrun : log.writeAll t₀ (records ++ [record]) = (t', log')) :
    ∃ base active, WritesTo t₀ log base ∧ WritesTo t' log' active ∧
      (Sited t₀ path n → t'.readFile path = .ok (t'.bytes active)) ∧
      ((t'.bytes active).size ≤ maxBytes ∨ t'.bytes active = record) ∧
      (∀ j, Made t₀ base j → (t'.bytes j).size ≤ maxBytes ∨ t'.bytes j ∈ records ++ [record] ∨
        t'.bytes j = t₀.bytes base) ∧
      Made t₀ base active ∧ ∀ j, ¬ Made t₀ base j → t'.bytes j = t₀.bytes j := by
  have hsettings := RotatingLog.openAt_settings hopen
  simp only [RotatingLog.settings, Prod.mk.injEq] at hsettings
  obtain ⟨hpath, hmax, hfiles⟩ := hsettings
  obtain ⟨base, hbase⟩ := InUse.opened hsound hopen
  rw [RotatingLog.results_append, List.forall_mem_append] at hok
  obtain ⟨id, huse, hgrown, hid⟩ :=
    hbase.writeAll (grown_refl t₀ base log.maxBytes) (.inl rfl) hok.1
  have hlast := hok.2
  rw [RotatingLog.results, List.forall_mem_cons] at hlast
  obtain ⟨active, huse', hlanded⟩ := huse.write hlast.1
  have hmax' : (log.writeAll t₀ records).2.maxBytes = maxBytes :=
    (congrArg (·.2.1) (log.writeAll_settings t₀ records)).trans hmax
  rw [hmax'] at hlanded
  rw [hmax] at hgrown
  obtain ⟨hgrown', hactive⟩ := hgrown.write hid hlanded
  have hend := log.writeAll_append t₀ records [record]
  rw [hrun] at hend
  obtain ⟨rfl, rfl⟩ := Prod.mk.inj hend
  refine ⟨base, active, hbase.toWritesTo, huse'.toWritesTo, fun hsited => ?_, hlanded.landed,
    hgrown'.bounded, hactive, hgrown'.kept⟩
  obtain ⟨-, -, s, hlive⟩ := hsited.live hsound hopen
  obtain ⟨hlive', hsame, -⟩ := hlive.writeAll_live (records ++ [record])
  obtain ⟨old, hread, -⟩ := hlive'.readFile_active
  rw [hrun] at hread hsame
  have hold := huse'.readFile_eq hread
  simp only at hsame
  rw [hold, hsame, hpath] at hread
  exact hread

/-- A log that is too long from the start. -/
def overfull : FileTree :=
  ⟨.dir [("work", .dir [("app.log", .file 0)])], #["much too long\n".toUTF8], ["work"]⟩

def overfullLog : RotatingLog := ⟨"app.log", 4, 1, some 0, 14⟩

theorem overfull_sound : overfull.Sound := by
  have hmade := (FileTree.sound_empty.create (d := ["work"]) (a := "app.log") rfl rfl).append 0
    "much too long\n".toUTF8
  exact hmade

theorem overfull_opened :
    RotatingLog.openAt overfull "app.log" 4 1 = (overfull, .ok overfullLog) := by
  have hmade : RotatingLog.makeParent overfull "app.log" = (overfull, .ok ()) := rfl
  rw [RotatingLog.openAt, hmade]
  simp +decide [FileTree.openAppend, FileTree.resolve, overfull, overfullLog, Path.pieces,
    FileTree.walk, Node.get?, Node.entries, FileTree.size, FileTree.bytes]

/-- A short record and one without bytes. -/
def shortRecords : List ByteArray := ["one\n".toUTF8, .empty]

theorem overfull_results :
    overfullLog.results overfull (shortRecords ++ ["long again\n".toUTF8]) =
      [.ok (), .ok (), .ok ()] := by
  have harchive : archivePath "app.log" 1 = "app.1.log" := rfl
  simp +decide [RotatingLog.results, RotatingLog.write, RotatingLog.isFullFor, RotatingLog.rotate,
    RotatingLog.shift, FileTree.pathExists, slotPath, harchive, FileTree.resolve, overfullLog,
    Path.pieces, FileTree.walk, Node.get?, Node.entries, List.lookup_cons, RotatingLog.clearSlot,
    FileTree.removeFile, FileTree.rename, FileTree.put, Node.alter, Node.alterEntry,
    RotatingLog.reopen, FileTree.openAppend, FileTree.create, RotatingLog.appendRecord,
    FileTree.append, FileTree.bytes, FileTree.size, bind, Except.bind, overfull, shortRecords]

/-- The last record is too long as well and gets a file of its own. -/
theorem file_sizes_bounded_overfull :
    overfull.Sound ∧ RotatingLog.openAt overfull "app.log" 4 1 = (overfull, .ok overfullLog) ∧
      (∀ r ∈ overfullLog.results overfull (shortRecords ++ ["long again\n".toUTF8]), r = .ok ()) ∧
      ∀ t' log', overfullLog.writeAll overfull (shortRecords ++ ["long again\n".toUTF8]) =
          (t', log') →
        ∃ active, WritesTo t' log' active ∧
          ((t'.bytes active).size ≤ 4 ∨ t'.bytes active = "long again\n".toUTF8) := by
  have hok : ∀ r ∈ overfullLog.results overfull (shortRecords ++ ["long again\n".toUTF8]),
      r = .ok () := by
    rw [overfull_results]
    simp
  refine ⟨overfull_sound, overfull_opened, hok, fun t' log' hrun => ?_⟩
  obtain ⟨base, active, -, hactive, -, hlast, -⟩ :=
    file_sizes_bounded overfull_sound overfull_opened hok hrun
  exact ⟨active, hactive, hlast⟩

end Overseer.Log
