import Overseer.FileTree

/-! A log file bounded in size, with numbered archives: `app.log` moves to `app.1.log`,
that to `app.2.log`, and so on; the oldest is dropped. A record is written whole, into
a fresh file if the active one has no room for it. -/

namespace Overseer.Log

/-- `app.log` to `app.1.log`, `app` to `app.1`. -/
def archivePath (base : String) (index : Nat) : String :=
  let chars := base.toList
  let number := Nat.toDigits 10 index
  let stem := (Path.fileStem? chars).getD []
  let name := match Path.extension? chars with
    | some e => stem ++ '.' :: number ++ '.' :: e
    | none => stem ++ '.' :: number
  String.ofList (Path.withFileName chars name)

/-- Slot 0 is the active file, slot `i` the archive of index `i`. -/
def slotPath (base : String) : Nat → String
  | 0 => base
  | i + 1 => archivePath base (i + 1)

structure RotatingLog where
  path : String
  maxBytes : Nat
  maxFiles : Nat
  /-- The open file, unless a rotation failed and none could be opened since. -/
  handle : Option Nat
  size : Nat

namespace RotatingLog

/-- Makes the directory that a path names a file in, where missing. -/
def makeParent (t : FileTree) (path : String) : FileTree × Except FileError Unit :=
  match Path.parent? path.toList with
  | some (c :: r) => t.makeDirs (String.ofList (c :: r))
  | _ => (t, .ok ())

/-- Opens the active file to append to it, and makes its directory where missing. -/
def openAt (t : FileTree) (path : String) (maxBytes maxFiles : Nat) :
    FileTree × Except FileError RotatingLog :=
  match makeParent t path with
  | (t, .error e) => (t, .error e)
  | (t, .ok ()) =>
    match t.openAppend path with
    | .error e => (t, .error e)
    | .ok (t, id) => (t, .ok ⟨path, maxBytes, maxFiles, some id, t.size id⟩)

/-- Removes a file that may be missing. -/
def clearSlot (t : FileTree) (path : String) : Except FileError FileTree :=
  match t.removeFile path with
  | .error .notFound => .ok t
  | r => r

/-- Moves slot `n - 1` to `n`, then `n - 2` to `n - 1`, down to slot 0. A slot that does
not exist is not moved; the first failure ends the shift. -/
def shift (t : FileTree) (base : String) : Nat → FileTree × Except FileError Unit
  | 0 => (t, .ok ())
  | n + 1 =>
    let source := slotPath base n
    if t.pathExists source then
      let target := slotPath base (n + 1)
      match clearSlot t target with
      | .error e => (t, .error e)
      | .ok t =>
        match t.rename source target with
        | .error e => (t, .error e)
        | .ok t => shift t base n
    else shift t base n

/-- Opens the active file again and takes its size from it. -/
def reopen (log : RotatingLog) (t : FileTree) : FileTree × RotatingLog × Except FileError Unit :=
  match t.openAppend log.path with
  | .error e => (t, log, .error e)
  | .ok (t, id) => let size := t.size id; (t, { log with handle := some id, size }, .ok ())

/-- Makes room: without archives the active file is cut to nothing, otherwise every slot
moves up by one and a new active file is opened. -/
def rotate (log : RotatingLog) (t : FileTree) : FileTree × RotatingLog × Except FileError Unit :=
  if log.maxFiles = 0 then
    let t := match log.handle with
      | some id => t.truncate id
      | none => t
    (t, { log with size := 0 }, .ok ())
  else
    let log := { log with handle := none }
    match shift t log.path log.maxFiles with
    | (t, .error e) => (t, log, .error e)
    | (t, .ok ()) => reopen log t

/-- Whether a record of so many bytes calls for a rotation first. -/
def isFullFor (log : RotatingLog) (length : Nat) : Bool :=
  0 < log.size && log.maxBytes < log.size + length

/-- What one write did. -/
structure Outcome where
  tree : FileTree
  log : RotatingLog
  result : Except FileError Unit
  /-- Whether archives were shifted. -/
  rotated : Bool

/-- Adds a record to the open file, if one is open. -/
def appendRecord (log : RotatingLog) (t : FileTree) (record : ByteArray) : FileTree × RotatingLog :=
  match log.handle with
  | some id => (t.append id record, { log with size := log.size + record.size })
  | none => (t, log)

/-- Writes one record. A failed rotation is told only after the record is written to the
file that is active then. -/
def write (log : RotatingLog) (t : FileTree) (record : ByteArray) : Outcome :=
  let (t, log, rotation, rotated) :=
    if log.isFullFor record.size then
      let (t, log, r) := log.rotate t
      (t, log, r, r.isOk && log.maxFiles != 0)
    else (t, log, .ok (), false)
  let (t, log, opened) := if log.handle.isNone then log.reopen t else (t, log, .ok ())
  match opened with
  | .error e => ⟨t, log, .error e, rotated⟩
  | .ok () =>
    let (t, log) := log.appendRecord t record
    ⟨t, log, rotation, rotated⟩

end RotatingLog

end Overseer.Log
