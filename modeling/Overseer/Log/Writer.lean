import Overseer.Calendar
import Overseer.Event
import Overseer.Log.LineBuffer
import Overseer.Log.RotatingLog

/-! Keeps the output of one instance: each line of its two streams becomes a record with
the time in front, and lines of the error stream bear a marker. -/

namespace Overseer.Log

inductive Stream where
  | stdout | stderr
  deriving DecidableEq, Repr

def stderrMarker : String := "[stderr]"

/-- Ten mebibytes. -/
def defaultMaxBytes : Nat := 10 * 1024 * 1024

def defaultMaxFiles : Nat := 3

/-- What stands before the line in a record. -/
def Stream.lead (stream : Stream) (now : Timestamp) : String :=
  now.record ++ " | " ++
    (match stream with
    | .stdout => ""
    | .stderr => stderrMarker ++ " ")

/-- One line of the log. -/
def record (now : Timestamp) (stream : Stream) (line : ByteArray) : ByteArray :=
  ((stream.lead now).toUTF8 ++ line).push newline

structure Writer where
  path : String
  /-- The log, unless it could not be opened and output is discarded. -/
  log : Option RotatingLog
  stdout : LineBuffer
  stderr : LineBuffer
  /-- Whether a failed write has been reported. -/
  failed : Bool

namespace Writer

/-- A writer after some work, with the tree it wrote to and what it reported. -/
structure Progress where
  tree : FileTree
  writer : Writer
  events : List Event

def openAt (t : FileTree) (path : String) (maxBytes maxFiles : Nat) : Progress :=
  match RotatingLog.openAt t path maxBytes maxFiles with
  | (t, .ok log) => ⟨t, ⟨path, some log, .new, .new, false⟩, []⟩
  | (t, .error _) => ⟨t, ⟨path, none, .new, .new, false⟩, [.logUnopened path]⟩

def isActive (w : Writer) : Bool := w.log.isSome

/-- Writes a line as a record. The first failed write is reported, later ones are not. -/
def emit (now : Timestamp) (stream : Stream) (line : ByteArray) (p : Progress) : Progress :=
  let ⟨t, w, events⟩ := p
  match w.log with
  | none => ⟨t, w, events⟩
  | some log =>
    let o := log.write t (record now stream line)
    let events := if o.rotated then events ++ [.logRotated o.log.path] else events
    match o.result with
    | .ok () => ⟨o.tree, { w with log := some o.log }, events⟩
    | .error _ =>
      let events := if w.failed then events else events ++ [.recordFailed w.path]
      ⟨o.tree, { w with log := some o.log, failed := true }, events⟩

/-- Writes lines in turn; `clock` tells the time at the first, the second, and so on. -/
def emitAll (clock : Nat → Timestamp) (stream : Stream) (lines : List ByteArray) (p : Progress) :
    Progress :=
  lines.zipIdx.foldl (fun p (line, i) => emit (clock i) stream line p) p

def buffer (w : Writer) : Stream → LineBuffer
  | .stdout => w.stdout
  | .stderr => w.stderr

def setBuffer (w : Writer) (b : LineBuffer) : Stream → Writer
  | .stdout => { w with stdout := b }
  | .stderr => { w with stderr := b }

/-- Takes a chunk of one stream and writes the lines that it completes. -/
def append (w : Writer) (t : FileTree) (clock : Nat → Timestamp) (stream : Stream)
    (chunk : ByteArray) : Progress :=
  if w.isActive then
    let (b, lines) := (w.buffer stream).push chunk
    emitAll clock stream lines ⟨t, w.setBuffer b stream, []⟩
  else ⟨t, w, []⟩

/-- Writes what is left of a stream as a last record. -/
def flush (clock : Nat → Timestamp) (stream : Stream) (p : Progress) : Progress :=
  let (b, rest) := (p.writer.buffer stream).takeRemaining
  emitAll clock stream rest.toList { p with writer := p.writer.setBuffer b stream }

/-- Writes what is left of both streams, the standard output first. -/
def close (w : Writer) (t : FileTree) (clock : Stream → Timestamp) : Progress :=
  flush (fun _ => clock .stderr) .stderr (flush (fun _ => clock .stdout) .stdout ⟨t, w, []⟩)

end Writer

end Overseer.Log
