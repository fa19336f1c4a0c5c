import Overseer.Log.Writer
import Overseer.Process.Summary
import Overseer.Programs.ExitStatus

/-! Supervision of one program, step by step. Two readers take what the program writes to its
pipes and put it on a channel; a loop takes it from there into the log, notes polls, and
learns of the program's end; after that, the channel is drained until both readers have met
the end of their pipes, or time is up. -/

namespace Overseer.Supervision

open Log (Stream Writer)
open Programs (ExitStatus)

/-- One of the program's pipes, and its reader. -/
structure Pipe where
  unread : ByteArray := .empty
  /-- Whether somebody can still write to it. -/
  isOpen : Bool := true
  /-- Whether its reader is still at work. -/
  isRead : Bool := true

inductive Phase where
  | running
  | draining (ending : ExitStatus)
  | closed (ending : ExitStatus) (timedOut : Bool)
  deriving DecidableEq, Repr

structure State where
  tree : FileTree
  writer : Writer
  stdout : Pipe := {}
  stderr : Pipe := {}
  /-- What the readers have sent and the loop has not yet received, oldest first. -/
  channel : List (Stream × ByteArray) := []
  phase : Phase := .running
  polls : Nat := 0
  lastSummary : Option Summary := none
  events : List Event := []

inductive Action where
  /-- The program, or one that it started, writes. -/
  | write (stream : Stream) (bytes : ByteArray)
  /-- Nobody can write any more. -/
  | hangUp (stream : Stream)
  /-- A reader takes bytes and sends them. -/
  | read (stream : Stream) (count : Nat)
  /-- A reader meets the end of its pipe. -/
  | endOfPipe (stream : Stream)
  /-- The loop receives the oldest chunk and appends it to the log. -/
  | receive
  /-- A poll is due; it found a family, or none. -/
  | tick (summary : Option Summary)
  | exit (ending : ExitStatus)
  /-- The time to drain is up. -/
  | timeout
  /-- All has been received and nothing more can come. -/
  | finish

/-- A reader takes no more bytes at once. -/
def maxChunk : Nat := 8192

namespace State

def pipe (s : State) : Stream → Pipe
  | .stdout => s.stdout
  | .stderr => s.stderr

def setPipe (s : State) (p : Pipe) : Stream → State
  | .stdout => { s with stdout := p }
  | .stderr => { s with stderr := p }

/-- Appends to the log. -/
def append (s : State) (clock : Nat → Timestamp) (stream : Stream) (chunk : ByteArray) : State :=
  let p := s.writer.append s.tree clock stream chunk
  { s with tree := p.tree, writer := p.writer, events := s.events ++ p.events }

/-- Writes what is left of both streams and closes the log. -/
def close (s : State) (clock : Stream → Timestamp) (ending : ExitStatus) (timedOut : Bool) :
    State :=
  let p := s.writer.close s.tree clock
  { s with
    tree := p.tree, writer := p.writer, phase := .closed ending timedOut
    events := s.events ++ (if timedOut then [.pipesStillOpen] else []) ++ p.events ++
      [.instanceExited] }

/-- The state after the log has been opened. -/
def start (t : FileTree) (path : String) (maxBytes maxFiles : Nat) : State :=
  let p := Writer.openAt t path maxBytes maxFiles
  { tree := p.tree, writer := p.writer, events := .instanceStarted :: p.events }

end State

def isClosed : Phase → Bool
  | .closed _ _ => true
  | _ => false

/-- The time at the last record of each stream, of which that of the standard output is first. -/
def lastClock (clock : Nat → Timestamp) : Stream → Timestamp
  | .stdout => clock 0
  | .stderr => clock 1

/-- What an action leads to, if it can happen; `clock` tells the time at the first record that is
written meanwhile, at the second, and so on. -/
def step (clock : Nat → Timestamp) (s : State) : Action → Option State
  | .write stream bytes =>
    let p := s.pipe stream
    if p.isOpen then some (s.setPipe { p with unread := p.unread ++ bytes } stream) else none
  | .hangUp stream => some (s.setPipe { s.pipe stream with isOpen := false } stream)
  | .read stream count =>
    let p := s.pipe stream
    if p.isRead ∧ 0 < count ∧ count ≤ maxChunk ∧ count ≤ p.unread.size ∧ !isClosed s.phase then
      let chunk := p.unread.extract 0 count
      let rest := p.unread.extract count p.unread.size
      some { s.setPipe { p with unread := rest } stream with
        channel := s.channel ++ [(stream, chunk)] }
    else none
  | .endOfPipe stream =>
    let p := s.pipe stream
    if !p.isOpen ∧ p.unread.size = 0 then some (s.setPipe { p with isRead := false } stream)
    else none
  | .receive =>
    match s.channel with
    | (stream, chunk) :: rest =>
      if isClosed s.phase then none
      else some ({ s with channel := rest }.append clock stream chunk)
    | [] => none
  | .tick summary =>
    match s.phase, summary with
    | .running, some total =>
      some { s with
        polls := s.polls + 1, lastSummary := some total
        events := s.events ++ [.instanceResources] }
    | .running, none => some s
    | _, _ => none
  | .exit ending =>
    match s.phase with
    | .running => some { s with phase := .draining ending }
    | _ => none
  | .timeout =>
    match s.phase with
    | .draining ending => some (s.close (lastClock clock) ending true)
    | _ => none
  | .finish =>
    match s.phase with
    | .draining ending =>
      if s.channel.isEmpty ∧ !s.stdout.isRead ∧ !s.stderr.isRead then
        some (s.close (lastClock clock) ending false)
      else none
    | _ => none

/-- The state after actions in turn, if they can all happen, all at one time. -/
def run (now : Timestamp) (s : State) (actions : List Action) : Option State :=
  actions.foldlM (step fun _ => now) s

end Overseer.Supervision
