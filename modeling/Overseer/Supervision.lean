import Overseer.Monitor
import Overseer.Programs.Host
import Overseer.Programs.Performance
import Overseer.Supervision.Step

/-! Supervision of a program whose performance is known: the actions that it leads to, in
order of time, and what comes of them. -/

namespace Overseer.Supervision

open Log (Stream)
open Programs (ExitStatus Performance)

structure Options where
  logPath : String
  maxBytes : Nat
  maxFiles : Nat
  /-- Microseconds between polls. -/
  interval : Nat
  includeChildren : Bool
  /-- Microseconds for which the output is drained after the program's end. -/
  drain : Nat

/-- Two seconds. A process that outlives the program may hold its pipes open for longer. -/
def drainTimeout : Nat := 2000000

/-- How a run of a program ended. -/
structure Outcome where
  tree : FileTree
  status : ExitStatus
  timedOut : Bool
  polls : Nat
  lastSummary : Option Summary
  events : List Event

/-- Taking so many bytes from a pipe, and receiving them. -/
def takeAll (stream : Stream) (size : Nat) : List Action :=
  let full := List.replicate (size / maxChunk) (Action.read stream maxChunk)
  let reads := full ++ if size % maxChunk = 0 then [] else [.read stream (size % maxChunk)]
  reads.flatMap fun r => [r, .receive]

/-- The totals of the program's family at a time, if it is there. -/
def pollAt (p : Performance) (pid : Nat) (now : Timestamp) (includeChildren : Bool)
    (time : Nat) : Option Summary :=
  let source := ((Programs.Host.ofLives p.lives time).table .empty now).source
  match Monitor.family source (fun _ => time) ∅ (.ofNat pid) includeChildren with
  | .ok poll =>
    if poll.result.isEmpty then none else (Summary.ofList poll.result).toOption
  | .error _ => none

/-- The times of polls up to the end of the program: at once, then after each interval. -/
def pollTimes (interval exitAt : Nat) : List Nat :=
  if interval = 0 then [] else (List.range (exitAt / interval + 1)).map (· * interval)

/-- The actions of a performance, with the time of each group of them. -/
def timeline (p : Performance) (pid : Nat) (now : Timestamp) (o : Options) :
    List (Nat × List Action) :=
  let ticks := (pollTimes o.interval p.exitAt).map fun t =>
    (t, [Action.tick (pollAt p pid now o.includeChildren t)])
  let writes := p.pieces.map fun w =>
    (w.at_, .write w.stream w.bytes :: takeAll w.stream w.bytes.size)
  let ends := [Stream.stdout, .stderr].map fun s =>
    (p.closedAt s, [Action.hangUp s, .endOfPipe s])
  (ticks ++ writes ++ [(p.exitAt, [Action.exit p.status])] ++ ends).mergeSort fun a b => a.1 ≤ b.1

/-- All that happens until the log is closed. -/
def actions (p : Performance) (pid : Nat) (now : Timestamp) (o : Options) : List Action :=
  let deadline := p.exitAt + o.drain
  let before := (timeline p pid now o).filter (·.1 ≤ deadline)
  let closed := max p.stdoutClosedAt p.stderrClosedAt
  before.flatMap (·.2) ++ [if closed ≤ deadline then .finish else .timeout]

/-- Supervises a program that has been started. -/
def supervise (p : Performance) (pid : Nat) (now : Timestamp) (o : Options) : Option Outcome := do
  let s ← run now (.start p.tree o.logPath o.maxBytes o.maxFiles) (actions p pid now o)
  match s.phase with
  | .closed status timedOut =>
    some ⟨s.tree, status, timedOut, s.polls, s.lastSummary, s.events⟩
  | _ => none

end Overseer.Supervision
