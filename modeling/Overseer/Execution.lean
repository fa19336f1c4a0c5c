import Overseer.CommandLine
import Overseer.Diagnostics.Origin
import Overseer.Display.Report
import Overseer.Supervision

/-! What an invocation does on a machine: the text it prints, the files it leaves, the code
it ends with, and what it reports on the way. -/

namespace Overseer

open CommandLine (Poll Launch Task Invocation)
open Programs (LaunchFailure)

/-- What a program meets outside of itself when it starts. -/
structure Machine where
  environment : Environment
  tree : FileTree
  now : Timestamp
  ownPid : Pid

/-- The processes at one time, and that time in nanoseconds of a steady clock. -/
structure View where
  source : Source
  now : Timestamp
  instant : Nat

/-- How the processes come into view, and how time passes in between. -/
structure Lookout (μ : Type → Type) where
  look : μ View
  pause : (milliseconds : Nat) → μ Unit

/-- The same view each time. -/
def Lookout.still (v : View) : Lookout Id := ⟨pure v, fun _ => pure ()⟩

/-- Why an invocation fails. -/
inductive Failure where
  | noSamples
  | processNotFound (pid : Pid)
  | noProgram
  | notLaunched (program : String) (cause : LaunchFailure)
  | overflow (cause : Overflow)
  | unfinished

namespace Failure

/-- The failure and its causes, outermost first. -/
def chain : Failure → List String
  | noSamples => ["--samples must be greater than 0"]
  | processNotFound pid => ["process " ++ toString pid.toNat ++ " not found"]
  | noProgram => ["no program given to run"]
  | notLaunched program cause => ["failed to spawn " ++ quoted program, cause.message]
  | overflow cause => [cause.message]
  | unfinished => ["failed waiting for instance"]
where
  quoted (s : String) : String := "\x60" ++ s ++ "\x60"

/-- Arithmetic that leaves its range aborts the program; other failures end it in order. -/
def exitCode : Failure → Nat
  | overflow _ => 101
  | _ => 1

end Failure

/-- How an invocation ended. -/
structure Ended where
  tree : FileTree
  code : Nat
  output : String := ""
  /-- What it prints apart from its output. -/
  remark : String := ""
  failure : Option Failure := none
  /-- What it reported, of what its filter lets through. -/
  events : List Event := []

namespace Execution

variable {μ : Type → Type} [Monad μ] {α : Type}

/-- The last of repeated polls, its time, and what all of them reported. -/
structure Sampled (α : Type) where
  result : α
  now : Timestamp
  events : List Event

/-- Polls once and then as often again as asked for, each time with the samples of the poll
before. -/
def pollRepeatedly (l : Lookout μ) (interval : Nat)
    (poll : View → CpuSamples → Except Overflow (Monitor.Poll α)) :
    Nat → CpuSamples → ExceptT Overflow μ (Sampled α)
  | more, samples => do
    let view ← l.look
    let p ← ExceptT.mk (pure (poll view samples))
    match more with
    | 0 => return ⟨p.result, view.now, p.events⟩
    | n + 1 =>
      l.pause interval
      let s ← pollRepeatedly l interval poll n p.samples
      return { s with events := p.events ++ s.events }

/-- The body of an answer in JSON, members in order of their names. -/
def body (pid : Pid) (now : Timestamp) (name : String) (what : Json) (total : Summary) : String :=
  (Json.sorted (.obj [("rootPid", .int pid.toNat), ("timestamp", .str now.text), (name, what),
    ("summary", total.toJson)])).pretty ++ "\n"

/-- What `tree` prints. -/
def treeText (json : Bool) (pid : Pid) (now : Timestamp) (t : ProcessTree) :
    Except Failure String := do
  if !t.info.isValid then throw (.processNotFound pid)
  let total ← (Summary.ofTree t).mapError .overflow
  return if json then body pid now "tree" t.toJson total
    else Display.tree t ++ Display.summary total ++ "\n"

/-- What `family` prints. -/
def familyText (json : Bool) (pid : Pid) (now : Timestamp) (infos : List Snapshot) :
    Except Failure String := do
  if infos.isEmpty then throw (.processNotFound pid)
  let total ← (Summary.ofList infos).mapError .overflow
  return if json then body pid now "processes" (.arr (infos.map Snapshot.toJson)) total
    else Display.family infos ++ Display.summary total ++ "\n"

/-- The end of an invocation that fails. -/
def failed (m : Machine) (f : Failure) (events : List Event) : Ended :=
  { tree := m.tree, code := f.exitCode, failure := some f, events }

/-- Polls as often as asked for, and writes the last result. -/
def report (l : Lookout μ) (m : Machine) (interval : Nat) (p : Poll)
    (poll : View → CpuSamples → Pid → Except Overflow (Monitor.Poll α))
    (write : Pid → Timestamp → α → Except Failure String) : μ Ended := do
  let pid := p.pid.getD m.ownPid
  match p.samples with
  | 0 => return failed m .noSamples []
  | n + 1 =>
    match ← (pollRepeatedly l interval (poll · · pid) n ∅).run with
    | .error e => return failed m (.overflow e) []
    | .ok s =>
      return match write pid s.now s.result with
        | .ok text => { tree := m.tree, code := 0, output := text, events := s.events }
        | .error f => failed m f s.events

/-- The settings for the log of one run. -/
def logSettings (s : LogSettings) (l : Launch) : LogSettings :=
  { dir := l.logDir.getD s.dir
    maxBytes := l.maxBytes.getD s.maxBytes
    maxFiles := l.maxFiles.getD s.maxFiles }

/-- How a run is supervised, and the name of the instance. -/
def runOptions (s : Settings) (l : Launch) (program : String) : String × Supervision.Options :=
  let name := l.name.getD (instanceName program)
  let logs := logSettings s.logs l
  (name,
    { logPath := logs.instancePath name
      maxBytes := logs.effectiveMaxBytes
      maxFiles := logs.maxFiles
      interval := 1000 * s.interval l.intervalMs
      includeChildren := s.monitor.includeChildren
      drain := Supervision.drainTimeout })

/-- The process id of a program that is started. -/
def childPid (m : Machine) : Nat := m.ownPid.toNat + 1

/-- Starts a program and supervises it. -/
def runProgram (m : Machine) (s : Settings) (l : Launch) : Except Failure Supervision.Outcome := do
  let program := l.command.headD ""
  if program = "" then throw .noProgram
  let p ← (Programs.launch m.tree (childPid m) m.ownPid.toNat l.command).mapError
    (.notLaunched program)
  match Supervision.supervise p (childPid m) m.now (runOptions s l program).2 with
  | some o => return o
  | none => throw .unfinished

/-- What a run of a program leads to. The last totals of its family are remarked. -/
def ended (m : Machine) (name : String) : Except Failure Supervision.Outcome → Ended
  | .ok o =>
    { tree := o.tree, code := o.status.exitCode, events := o.events
      remark := match o.lastSummary with
        | some total => name ++ ": " ++ Display.summary total ++ "\n"
        | none => "" }
  | .error e => failed m e []

def perform (l : Lookout μ) (m : Machine) (s : Settings) : Task → μ Ended
  | .tree p => report l m (s.interval p.intervalMs) p
      (fun v samples => Monitor.tree v.source (fun _ => v.instant) samples)
      (treeText p.json)
  | .family p noChildren => report l m (s.interval p.intervalMs) p
      (fun v samples pid => Monitor.family v.source (fun _ => v.instant) samples pid
        (s.monitor.includeChildren && !noChildren))
      (familyText p.json)
  | .run launch =>
    pure (ended m (runOptions s launch (launch.command.headD "")).1 (runProgram m s launch))

end Execution

/-- Runs the program with the words of a command line. What reading the settings has to report
comes before any filter is in force and is lost. -/
def execute {μ : Type → Type} [Monad μ] (l : Lookout μ) (m : Machine) (words : List String) :
    μ Ended :=
  match CommandLine.parse words with
  | .error .helpWanted => pure { tree := m.tree, code := 0 }
  | .error _ => pure { tree := m.tree, code := 2 }
  | .ok i => do
    let (s, _) := i.settings m.environment m.tree
    let filter := Diagnostics.Filter.choose m.environment.logFilter s.diagnostics.level
    let ended ← Execution.perform l m s i.task
    return { ended with events := filter.select ended.events }

end Overseer
