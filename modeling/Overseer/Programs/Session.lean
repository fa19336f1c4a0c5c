import Overseer.FileTree
import Overseer.Programs.ExitStatus
import Overseer.Programs.Flow
import Overseer.Shell.Command

/-! Programs at work: what they write to pipes and files, which processes they start, and
when everything happens. A process keeps its own time, and a program that another one
started in the background is followed to its end before the other one goes on. -/

namespace Overseer.Programs

open Text (Octets)

/-- Where a descriptor leads. -/
inductive Handle where
  | pipe (id : Nat)
  | file (id : Nat)
  | flow (id : Nat)
  | nothing
  deriving DecidableEq

structure Write where
  pipe : Nat
  writer : Nat
  at_ : Nat
  bytes : Octets

/-- A process while it runs one program. -/
structure Life where
  pid : Nat
  parent : Nat
  words : List Octets
  start : Nat
  finish : Option Nat := none

/-- A process could write to a pipe up to a time. -/
structure Hold where
  pipe : Nat
  holder : Nat
  last : Nat

structure Signal where
  target : Nat
  at_ : Nat
  number : Nat

/-- What all processes share. Lists have the newest first. -/
structure World where
  tree : FileTree
  pipes : Nat := 2
  written : List Write := []
  /-- Pipes into which one byte is written without end. -/
  endless : List (Nat × Char) := []
  flows : Array Flow := #[]
  holds : List Hold := []
  lives : List Life := []
  nextPid : Nat
  signals : List Signal := []

structure Job where
  pid : Nat
  finish : Nat
  status : ExitStatus

/-- One process, which may be a shell. -/
structure Process where
  pid : Nat
  /-- The process that a shell calls itself, also in its subshells. -/
  shellPid : Nat
  time : Nat
  name : Octets
  arguments : List Octets := []
  /-- The values of variables. -/
  bindings : List (Octets × Octets) := []
  exported : List Octets := []
  status : Nat := 0
  /-- The status of the last command that was run for its output. -/
  outputStatus : Nat := 0
  descriptors : List (Nat × Handle)
  functions : List (Octets × Shell.Command) := []
  jobs : List Job := []
  traps : List (Nat × Octets) := []
  exitOnError : Bool := false
  /-- Whether it is a fault to use a parameter that is not set. -/
  exitOnUnset : Bool := false
  /-- Loops that the process is in. -/
  loops : Nat := 0
  /-- Variables that the function at hand has for itself, with their former values. -/
  locals : List (Octets × Option Octets) := []
  /-- Whether the status of what runs is about to be tested. -/
  tested : Bool := false

structure Session where
  world : World
  process : Process

/-- Why a command ends before what follows it. -/
inductive Leave where
  | ended (status : ExitStatus)
  | breakLoop (levels : Nat)
  | continueLoop (levels : Nat)
  | endCall

abbrev Run := ExceptT Leave (StateM Session)

namespace Run

def world : Run World := return (← get).world

def process : Run Process := return (← get).process

def modifyWorld (f : World → World) : Run Unit := modify fun s => { s with world := f s.world }

def modifyProcess (f : Process → Process) : Run Unit :=
  modify fun s => { s with process := f s.process }

/-- Runs something to its end, or to where it leaves. -/
def attempt {α : Type} (x : Run α) : Run (Except Leave α) :=
  ExceptT.mk (do let r ← x.run; return .ok r)

def exit {α : Type} (n : Nat) : Run α := throw (.ended (.code (n % 256)))

def setStatus (n : Nat) : Run Unit := modifyProcess fun p => { p with status := n }

def handle (descriptor : Nat) : Run (Option Handle) :=
  return (← process).descriptors.lookup descriptor

/-- Writes at a time. -/
def emitAt (time descriptor : Nat) (bytes : Octets) : Run Unit := do
  match ← handle descriptor with
  | some (.pipe id) =>
    if bytes.isEmpty then return
    let pid := (← process).pid
    modifyWorld fun w => { w with written := ⟨id, pid, time, bytes⟩ :: w.written }
  | some (.file id) =>
    modifyWorld fun w => { w with tree := w.tree.append id (Text.octetBytes bytes) }
  | _ => return

def emit (descriptor : Nat) (bytes : Octets) : Run Unit := do
  emitAt (← process).time descriptor bytes

/-- Reports a fault of a program, or of a builtin command of the shell. -/
def complain (who : Octets) (message : String) : Run Unit :=
  emit 2 (who ++ Text.ofText (": " ++ message ++ "\n"))

def complainShell (message : String) : Run Unit := do
  complain (← process).name ("1: " ++ message)

/-- Passes a flow on, each chunk at its time, and waits for its end. -/
def pass (f : Flow) : Run Unit := do
  for c in f.chunks do emitAt c.at_ 1 c.bytes
  match f.endless, ← handle 1 with
  | some c, some (.pipe id) =>
    modifyWorld fun w => { w with endless := (id, c) :: w.endless }
  | _, _ => pure ()
  modifyProcess fun p => { p with time := max p.time f.endsAt }

/-- What can be read from a descriptor, from now on. -/
def input (descriptor : Nat) : Run Flow := do
  match ← handle descriptor with
  | some (.flow id) => return ((← world).flows.getD id .empty).notBefore (← process).time
  | _ => return Flow.empty.notBefore (← process).time

/-- Puts back what has not been read. -/
def setInput (descriptor : Nat) (f : Flow) : Run Unit := do
  match ← handle descriptor with
  | some (.flow id) => modifyWorld fun w => { w with flows := w.flows.setIfInBounds id f }
  | _ => return

def newFlow (f : Flow) : Run Nat := do
  let id := (← world).flows.size
  modifyWorld fun w => { w with flows := w.flows.push f }
  return id

def newPipe : Run Nat := do
  let id := (← world).pipes
  modifyWorld fun w => { w with pipes := id + 1 }
  return id

/-- All that went into a pipe, up to the time when nobody can write to it any more. -/
def drain (pipe : Nat) : Run Flow := do
  let w ← world
  let chunks := (w.written.reverse.filter (·.pipe = pipe)).map fun x => ⟨x.at_, x.bytes⟩
  let endsAt := ((w.holds.filter (·.pipe = pipe)).map (·.last)).foldl max (← process).time
  return ⟨chunks.mergeSort fun a b => a.at_ ≤ b.at_, w.endless.lookup pipe, endsAt⟩

/-- Notes that the process can write to its pipes up to now. -/
def holdPipes : Run Unit := do
  let p ← process
  let pipes := p.descriptors.filterMap fun (_, h) => match h with
    | .pipe id => some id
    | _ => none
  modifyWorld fun w =>
    { w with holds := pipes.map (fun id => ⟨id, p.pid, p.time⟩) ++ w.holds }

/-- Ends the current stretch of the process's life. -/
def finishLife : Run Unit := do
  let p ← process
  modifyWorld fun w =>
    { w with lives := w.lives.map fun l =>
        if l.pid = p.pid ∧ l.finish.isNone then { l with finish := some p.time } else l }

def beginLife (pid parent : Nat) (words : List Octets) (start : Nat) : Run Unit :=
  modifyWorld fun w => { w with lives := ⟨pid, parent, words, start, none⟩ :: w.lives }

/-- The words of the program that the process runs, and its parent. -/
def currentLife : Run (List Octets × Nat) := do
  let p ← process
  match (← world).lives.find? fun l => l.pid = p.pid with
  | some l => return (l.words, l.parent)
  | none => return ([], 0)

/-- Goes on as another program in the same process. -/
def become (words : List Octets) : Run Unit := do
  let p ← process
  let (_, parent) ← currentLife
  finishLife
  beginLife p.pid parent words p.time

/-- The end of what a process does, as the end of the process. -/
def endOf : Except Leave Unit → Nat → ExitStatus
  | .error (.ended status), _ => status
  | _, status => .code (status % 256)

/-- Starts a process that does something from a time on, and follows it to its end. The
process that started it has not moved on. -/
def fork (words : Option (List Octets)) (start : Nat) (body : Run Unit) : Run Job := do
  let parent ← process
  let pid := (← world).nextPid
  let (own, _) ← currentLife
  modifyWorld fun w => { w with nextPid := pid + 1 }
  beginLife pid parent.pid (words.getD own) start
  modifyProcess fun p => { p with pid, time := start, jobs := [], traps := [] }
  let r ← attempt body
  let p ← process
  holdPipes
  finishLife
  modifyProcess fun _ => parent
  return ⟨pid, p.time, endOf r p.status⟩

end Run

end Overseer.Programs
