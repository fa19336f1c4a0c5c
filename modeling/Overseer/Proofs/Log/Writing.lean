import Overseer.Proofs.Log.Opening
import Overseer.Proofs.Log.Shift

/-! What one write does to the slots of a log. `Shelf.Live` is the state that a write expects and
leaves; `write_wrote` lists all that a write may do. -/

namespace Overseer.Log

open RotatingLog (Outcome)

namespace Shelf

/-- A log in use: its slots can be moved, and the active file is open at its true length. -/
structure Live (s : Shelf) (t : FileTree) (log : RotatingLog) : Prop where
  holds : s.Holds t log.path log.maxFiles
  active : ∃ id, s.held log.path t 0 = some (.file id) ∧ log.handle = some id ∧
    log.size = t.size id

/-- What one write of a record does: it adds to the active file, cuts it before where there are
no archives, starts a new file, or fails to make room and adds to the active file all the same. -/
inductive Wrote (s : Shelf) (t : FileTree) (log : RotatingLog) (record : ByteArray) :
    Outcome → Prop
  | added {o : Outcome} (id : Nat) : log.isFullFor record.size = false →
      o.result = .ok () → o.rotated = false →
      s.held log.path t 0 = some (.file id) → s.held log.path o.tree = s.held log.path t →
      o.tree.contents = (t.append id record).contents → Wrote s t log record o
  | cut {o : Outcome} (id : Nat) : log.isFullFor record.size = true → log.maxFiles = 0 →
      o.result = .ok () → o.rotated = false →
      s.held log.path t 0 = some (.file id) → s.held log.path o.tree = s.held log.path t →
      o.tree.contents = ((t.truncate id).append id record).contents → Wrote s t log record o
  | shifted {o : Outcome} : log.isFullFor record.size = true → log.maxFiles ≠ 0 →
      o.result = .ok () → o.rotated = true →
      s.held log.path o.tree = set (lifted (s.held log.path t) log.maxFiles) 0
        (some (.file t.contents.size)) →
      o.tree.contents = t.contents.push record → Wrote s t log record o
  | stuck {o : Outcome} (id : Nat) (e : FileError) : log.isFullFor record.size = true →
      log.maxFiles ≠ 0 → (∀ i, s.held log.path t log.maxFiles ≠ some (.file i)) →
      o.result = .error e → o.rotated = false →
      s.held log.path t 0 = some (.file id) → s.held log.path o.tree = s.held log.path t →
      o.tree.contents = (t.append id record).contents → Wrote s t log record o

variable {s : Shelf} {t : FileTree} {log : RotatingLog} {record : ByteArray}

/-- With a file open, a record goes to its end. -/
theorem Holds.append_live (log : RotatingLog) (h : s.Holds t log.path log.maxFiles) {id : Nat}
    (hx : s.held log.path t 0 = some (.file id)) (hhandle : log.handle = some id)
    (hsize : log.size = t.size id) (record : ByteArray) :
    log.appendRecord t record =
        (t.append id record, { log with size := log.size + record.size }) ∧
      s.Live (t.append id record) { log with size := log.size + record.size } := by
  refine ⟨by rw [RotatingLog.appendRecord, hhandle], h.append id record, id, hx, hhandle, ?_⟩
  have hstored : id < t.contents.size :=
    h.intact.stored _ id (Node.kindAt_eq_file_iff.mpr (get?_of_held hx))
  show log.size + record.size = ((t.append id record).bytes id).size
  rw [FileTree.bytes_append_self t record hstored, ByteArray.size_append, hsize]
  rfl

theorem Holds.reopen_held (log : RotatingLog) (h : s.Holds t log.path log.maxFiles) {id : Nat}
    (hx : s.held log.path t 0 = some (.file id)) :
    log.reopen t = (t, { log with handle := some id, size := t.size id }, .ok ()) := by
  rw [RotatingLog.reopen, h.openAppend_held hx]

theorem Holds.reopen_free (log : RotatingLog) (h : s.Holds t log.path log.maxFiles)
    (hx : s.held log.path t 0 = none) :
    log.reopen t = ((t.create (s.slot 0)).1,
      { log with handle := some t.contents.size, size := 0 }, .ok ()) := by
  have hsize : (t.create (s.slot 0)).1.size t.contents.size = 0 := t.size_create_self (s.slot 0)
  rw [RotatingLog.reopen, h.openAppend_free hx]
  show (_, { log with handle := _, size := (t.create (s.slot 0)).1.size t.contents.size }, _) = _
  rw [hsize]
  rfl

/-- A log that opens on a shelf is in use, and a missing active file has been made. -/
theorem Holds.opened {path : String} {n maxBytes : Nat} {t₀ : FileTree} (h : s.Holds t path n)
    (hfile : ∀ x, s.held path t 0 = some x → ∃ id, x = .file id)
    (hopen : RotatingLog.openAt t path maxBytes n = (t₀, .ok log)) :
    log.path = path ∧ log.maxFiles = n ∧ s.Live t₀ log ∧
      (t₀ = t ∨ s.held path t 0 = none ∧ t₀ = (t.create (s.slot 0)).1) := by
  cases hx : s.held path t 0 with
  | some x =>
    obtain ⟨id, rfl⟩ := hfile x hx
    rw [h.openAt_held maxBytes n hx] at hopen
    cases hopen
    exact ⟨rfl, rfl, ⟨h, id, hx, rfl, rfl⟩, Or.inl rfl⟩
  | none =>
    rw [h.openAt_free maxBytes n hx] at hopen
    cases hopen
    have hcreated := h.create (Nat.zero_le n) h.reached.fits
    have hactive : s.held path (t.create (s.slot 0)).1 0 = some (.file t.contents.size) := by
      rw [h.held_create h.reached.fits, set_self]
    exact ⟨rfl, rfl, ⟨hcreated, _, hactive, rfl, (t.size_create_self (s.slot 0)).symm⟩,
      Or.inr ⟨rfl, rfl⟩⟩

/-! ## Rotations -/

/-- A shift that goes through is followed by a new active file. -/
theorem Holds.rotate_shifted (log : RotatingLog) (h : s.Holds t log.path log.maxFiles)
    (hn : log.maxFiles ≠ 0)
    (hraise : raise (s.Fits log.path) log.maxFiles (s.held log.path t) =
      (lifted (s.held log.path t) log.maxFiles, .ok ())) :
    ∃ t', log.rotate t = ((t'.create (s.slot 0)).1,
        { log with handle := some t'.contents.size, size := 0 }, .ok ()) ∧
      s.Holds t' log.path log.maxFiles ∧
      s.held log.path t' = lifted (s.held log.path t) log.maxFiles ∧
      t'.contents = t.contents ∧ s.Confined log.path log.maxFiles t t' := by
  obtain ⟨t', hshift, hHolds, hheld, hcontents, hconfined, -⟩ := h.shift_raises (Nat.le_refl _)
  simp only [hraise] at hshift hheld
  have hfree : s.held log.path t' 0 = none := by rw [hheld]; rfl
  have hreopen : ({ log with handle := none } : RotatingLog).reopen t' = _ :=
    Holds.reopen_free { log with handle := none } hHolds hfree
  refine ⟨t', ?_, hHolds, hheld, hcontents, hconfined⟩
  rw [RotatingLog.rotate, if_neg hn]
  simp only [hshift, hreopen]

/-- A shift that fails leaves the tree as it is. -/
theorem Holds.rotate_stuck (log : RotatingLog) (h : s.Holds t log.path log.maxFiles)
    (hn : log.maxFiles ≠ 0) {e : FileError}
    (hraise : (raise (s.Fits log.path) log.maxFiles (s.held log.path t)).2 = .error e) :
    log.rotate t = (t, { log with handle := none }, .error e) := by
  obtain ⟨t', hshift, -, -, -, -, hsame⟩ := h.shift_raises (Nat.le_refl _)
  rw [hraise, hsame e hraise] at hshift
  rw [RotatingLog.rotate, if_neg hn]
  simp only [hshift]

/-! ## One write -/

theorem write_of_room (h : log.isFullFor record.size = false) {id : Nat}
    (hhandle : log.handle = some id) :
    log.write t record =
      ⟨(log.appendRecord t record).1, (log.appendRecord t record).2, .ok (), false⟩ := by
  simp [RotatingLog.write, h, hhandle]

/-- A write that makes room first and finds a file open afterwards. -/
theorem write_of_full (h : log.isFullFor record.size = true) {t' t'' : FileTree}
    {log' log'' : RotatingLog} {r : Except FileError Unit}
    (hrotate : log.rotate t = (t', log', r))
    (hopen : (if log'.handle.isNone then log'.reopen t' else (t', log', .ok ())) =
      (t'', log'', .ok ())) :
    log.write t record = ⟨(log''.appendRecord t'' record).1, (log''.appendRecord t'' record).2, r,
      r.isOk && log'.maxFiles != 0⟩ := by
  simp only [RotatingLog.write, h, ↓reduceIte, hrotate, hopen]

theorem Live.write_cut (h : s.Live t log) (hfull : log.isFullFor record.size = true)
    (hnone : log.maxFiles = 0) :
    s.Wrote t log record (log.write t record) ∧
      s.Live (log.write t record).tree (log.write t record).log ∧
      s.Confined log.path log.maxFiles t (log.write t record).tree := by
  obtain ⟨id, hx, hhandle, hsize⟩ := h.active
  have hrotate : log.rotate t = (t.truncate id, { log with size := 0 }, .ok ()) := by
    simp only [RotatingLog.rotate, hnone, ↓reduceIte, hhandle]
  obtain ⟨happend, hlive⟩ := (h.holds.truncate id).append_live { log with size := 0 }
    hx hhandle (t.size_truncate_self id).symm record
  have hopen : (if ({ log with size := 0 } : RotatingLog).handle.isNone then
      ({ log with size := 0 } : RotatingLog).reopen (t.truncate id)
      else (t.truncate id, { log with size := 0 }, .ok ())) =
      (t.truncate id, { log with size := 0 }, .ok ()) := by simp [hhandle]
  rw [write_of_full hfull hrotate hopen, happend]
  exact ⟨.cut id hfull hnone rfl (by simp [hnone]) hx rfl rfl, hlive, .of_root rfl rfl⟩

theorem Live.write_shifted (h : s.Live t log) (hfull : log.isFullFor record.size = true)
    (hn : log.maxFiles ≠ 0)
    (hraise : raise (s.Fits log.path) log.maxFiles (s.held log.path t) =
      (lifted (s.held log.path t) log.maxFiles, .ok ())) :
    s.Wrote t log record (log.write t record) ∧
      s.Live (log.write t record).tree (log.write t record).log ∧
      s.Confined log.path log.maxFiles t (log.write t record).tree := by
  obtain ⟨t', hrotate, hHolds, hheld, hcontents, hconfined⟩ := h.holds.rotate_shifted log hn hraise
  have hcreated := hHolds.create (Nat.zero_le _) hHolds.reached.fits
  have hx : s.held log.path (t'.create (s.slot 0)).1 0 = some (.file t'.contents.size) := by
    rw [hHolds.held_create hHolds.reached.fits, set_self]
  obtain ⟨happend, hlive⟩ := hcreated.append_live
    { log with handle := some t'.contents.size, size := 0 } hx rfl
    (t'.size_create_self (s.slot 0)).symm record
  rw [write_of_full hfull hrotate rfl, happend]
  have hreopened := hconfined.trans (hHolds.confined_create (Nat.zero_le _) hHolds.reached.fits)
  refine ⟨.shifted hfull hn rfl (by simp [Except.isOk, Except.toBool, hn]) ?_ ?_, hlive,
    hreopened.trans (.of_root rfl rfl)⟩
  · rw [← hcontents, ← hheld]
    exact hHolds.held_create hHolds.reached.fits
  · rw [← hcontents]
    exact FileTree.contents_create_append t' (s.slot 0) record

/-- A write that cannot make room adds the record to the active file all the same. -/
theorem Live.write_failed (h : s.Live t log) (hfull : log.isFullFor record.size = true)
    (hn : log.maxFiles ≠ 0) {e : FileError}
    (hraise : (raise (s.Fits log.path) log.maxFiles (s.held log.path t)).2 = .error e) {id : Nat}
    (hx : s.held log.path t 0 = some (.file id)) :
    log.write t record = ⟨t.append id record,
      { log with handle := some id, size := t.size id + record.size }, .error e, false⟩ := by
  have hopen : ({ log with handle := none } : RotatingLog).reopen t =
      (t, { log with handle := some id, size := t.size id }, .ok ()) :=
    Holds.reopen_held { log with handle := none } h.holds hx
  rw [write_of_full hfull (h.holds.rotate_stuck log hn hraise) hopen]
  rfl

theorem Live.write_stuck (h : s.Live t log) (hfull : log.isFullFor record.size = true)
    (hn : log.maxFiles ≠ 0) {e : FileError}
    (hlast : s.Fits log.path log.maxFiles → ∃ es, s.held log.path t log.maxFiles = some (.dir es))
    (hraise : (raise (s.Fits log.path) log.maxFiles (s.held log.path t)).2 = .error e) :
    s.Wrote t log record (log.write t record) ∧
      s.Live (log.write t record).tree (log.write t record).log ∧
      s.Confined log.path log.maxFiles t (log.write t record).tree := by
  obtain ⟨id, hx, -, -⟩ := h.active
  have hlive := (h.holds.append_live { log with handle := some id, size := t.size id } hx rfl rfl
    record).2
  rw [h.write_failed hfull hn hraise hx]
  refine ⟨.stuck id e hfull hn ?_ rfl rfl hx rfl rfl, hlive, .of_root rfl rfl⟩
  intro i hi
  obtain ⟨es, hes⟩ := hlast (fits_of_held hi)
  rw [hes] at hi
  cases hi

/-- A write fails just as far as its rotation does. -/
theorem Live.write_result (h : s.Live t log) (record : ByteArray) :
    (log.write t record).result =
      if log.isFullFor record.size then
        (raise (s.Fits log.path) log.maxFiles (s.held log.path t)).2
      else .ok () := by
  obtain ⟨id, hx, hhandle, -⟩ := h.active
  cases hfull : log.isFullFor record.size with
  | false => rw [write_of_room hfull hhandle]; rfl
  | true =>
    rw [if_pos rfl]
    by_cases hne : log.maxFiles = 0
    · rw [hne, raise]
      cases (h.write_cut hfull hne).1 with
      | added _ hroom => rw [hroom] at hfull; cases hfull
      | cut _ _ _ hok => exact hok
      | shifted _ hnot => exact absurd hne hnot
      | stuck _ _ _ hnot => exact absurd hne hnot
    · rcases h.holds.raise_cases hne with hmoved | ⟨-, e, hstuck⟩
      · obtain ⟨t', hrotate, -⟩ := h.holds.rotate_shifted log hne hmoved
        rw [write_of_full hfull hrotate rfl, hmoved]
      · rw [h.write_failed hfull hne (congrArg (·.2) hstuck) hx, hstuck]

/-- A write does one of four things, leaves the log in use, and touches nothing beside it. -/
theorem Live.write_wrote (h : s.Live t log) (record : ByteArray) :
    s.Wrote t log record (log.write t record) ∧
      s.Live (log.write t record).tree (log.write t record).log ∧
      s.Confined log.path log.maxFiles t (log.write t record).tree := by
  obtain ⟨id, hx, hhandle, hsize⟩ := h.active
  by_cases hfull : log.isFullFor record.size = true
  · by_cases hne : log.maxFiles = 0
    · exact h.write_cut hfull hne
    · rcases h.holds.raise_cases hne with hraise | ⟨hlast, e, hraise⟩
      · exact h.write_shifted hfull hne hraise
      · exact h.write_stuck hfull hne hlast (congrArg (·.2) hraise)
  · rw [Bool.not_eq_true] at hfull
    obtain ⟨happend, hlive⟩ := h.holds.append_live log hx hhandle hsize record
    rw [write_of_room hfull hhandle, happend]
    exact ⟨.added id hfull rfl rfl hx rfl rfl, hlive, .of_root rfl rfl⟩

end Shelf

namespace RotatingLog

/-- A rotation that goes through has shifted the slots and opened the log's path again. -/
theorem shift_of_rotate {t t' : FileTree} {log log' : RotatingLog} (hn : log.maxFiles ≠ 0)
    (hrotate : log.rotate t = (t', log', .ok ())) :
    ∃ (t₁ : FileTree) (id : Nat), shift t log.path log.maxFiles = (t₁, .ok ()) ∧
      t₁.openAppend log.path = .ok (t', id) ∧
      log' = { log with handle := some id, size := t'.size id } := by
  rw [rotate, if_neg hn] at hrotate
  dsimp only at hrotate
  split at hrotate
  · cases hrotate
  · next t₁ hshift =>
    unfold reopen at hrotate
    split at hrotate
    · cases hrotate
    · next t₂ id hopen =>
      cases hrotate
      exact ⟨t₁, id, hshift, hopen, rfl⟩

/-! ## What never changes -/

/-- What a log was opened with. -/
def settings (log : RotatingLog) : String × Nat × Nat := (log.path, log.maxBytes, log.maxFiles)

variable (log : RotatingLog) (t : FileTree)

theorem reopen_settings : (log.reopen t).2.1.settings = log.settings := by
  unfold reopen
  split
  · rfl
  · rfl

theorem rotate_settings : (log.rotate t).2.1.settings = log.settings := by
  unfold rotate
  split
  · rfl
  · dsimp only
    split
    · rfl
    · exact reopen_settings _ _

theorem appendRecord_settings (record : ByteArray) :
    (log.appendRecord t record).2.settings = log.settings := by
  unfold appendRecord
  split
  · rfl
  · rfl

theorem write_settings (record : ByteArray) :
    (log.write t record).log.settings = log.settings := by
  unfold write
  split
  next t₁ log₁ rotation rotated hroom =>
  have h₁ : log₁.settings = log.settings := by
    split at hroom
    · have hrotate := log.rotate_settings t
      rcases log.rotate t with ⟨t', log', r⟩
      cases hroom
      exact hrotate
    · cases hroom
      rfl
  split
  next t₂ log₂ opened hopen =>
  have h₂ : log₂.settings = log.settings := by
    split at hopen
    · have hreopen := log₁.reopen_settings t₁
      rw [hopen] at hreopen
      exact hreopen.trans h₁
    · cases hopen
      exact h₁
  split
  · exact h₂
  · exact (log₂.appendRecord_settings t₂ record).trans h₂

theorem write_path (record : ByteArray) : (log.write t record).log.path = log.path :=
  congrArg (·.1) (log.write_settings t record)

theorem write_maxFiles (record : ByteArray) :
    (log.write t record).log.maxFiles = log.maxFiles :=
  congrArg (·.2.2) (log.write_settings t record)

end RotatingLog

end Overseer.Log
