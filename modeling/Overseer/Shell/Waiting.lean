import Overseer.Shell.Expansion
import Overseer.Shell.Reader
import Overseer.Text.Lines

/-! Signals, and waiting: time passes for a process until something ends or a signal comes. -/

namespace Overseer.Shell

open Text (Octets)
open Programs (Run)
open Programs.Run

/-- Names and numbers of signals. -/
def signalNames : List (String × Nat) :=
  [("EXIT", 0), ("HUP", 1), ("INT", 2), ("QUIT", 3), ("ILL", 4), ("TRAP", 5), ("ABRT", 6),
    ("BUS", 7), ("FPE", 8), ("KILL", 9), ("USR1", 10), ("SEGV", 11), ("USR2", 12), ("PIPE", 13),
    ("ALRM", 14), ("TERM", 15), ("CHLD", 17), ("CONT", 18), ("STOP", 19), ("TSTP", 20),
    ("TTIN", 21), ("TTOU", 22), ("URG", 23), ("XCPU", 24), ("XFSZ", 25), ("VTALRM", 26),
    ("PROF", 27), ("WINCH", 28), ("IO", 29), ("PWR", 30), ("SYS", 31)]

def signal? (s : Octets) : Option Nat :=
  match Text.natural? s with
  | some n => if n ≤ 64 then some n else none
  | none =>
    signalNames.lookup (String.ofList s).toUpper

/-- Signals that end no process. -/
def isHarmless (signal : Nat) : Bool := [0, 17, 18, 19, 20, 21, 22, 23, 28].contains signal

/-- What a shell says when a signal has ended a program that it waited for. -/
def signalTexts : List (Nat × String) :=
  [(1, "Hangup"), (3, "Quit"), (4, "Illegal instruction"), (5, "Trace/breakpoint trap"),
    (6, "Aborted"), (7, "Bus error"), (8, "Floating point exception"), (9, "Killed"),
    (10, "User defined signal 1"), (11, "Segmentation fault"), (12, "User defined signal 2"),
    (14, "Alarm clock"), (15, "Terminated")]

/-- A signal reaches the process: its trap runs, or it ends the process. -/
def deliver (ev : Evaluator) (signal : Nat) : Run Unit := do
  match (← process).traps.lookup signal with
  | some script =>
    match parse script with
    | .ok c => ev.run false c
    | .error e => abandon ("Syntax error: " ++ e)
  | none => if isHarmless signal then return else throw (.ended (.signal signal))

/-- Time passes for the process, unless a signal reaches it first. -/
def advance (ev : Evaluator) (time : Nat) : Run Unit := do
  let p ← process
  let due := (← world).signals.filter fun s => s.target = p.pid ∧ s.at_ ≤ time
  match (due.mergeSort fun a b => a.at_ ≤ b.at_).head? with
  | some s =>
    modifyWorld fun w => { w with signals := w.signals.filter fun x =>
      !(x.target = p.pid ∧ x.at_ ≤ time) }
    modifyProcess fun p => { p with time := max p.time s.at_ }
    deliver ev s.number
    modifyProcess fun p => { p with time := max p.time time }
  | none => modifyProcess fun p => { p with time := max p.time time }

/-- Takes the status of a process, and says so if a signal ended it. -/
def takeStatus (status : Programs.ExitStatus) : Run Unit := do
  setStatus status.number
  match status with
  | .signal n =>
    match signalTexts.lookup n with
    | some text => emit 2 (Text.ofText (text ++ "\n"))
    | none => return
  | .code _ => return

/-- Waits for a process that was started, and takes its status. -/
def awaitJob (ev : Evaluator) (job : Programs.Job) : Run Unit := do
  advance ev job.finish
  takeStatus job.status

/-- A process ends at a time, whatever it did after that. -/
def cutShort (pid time signal : Nat) : Run Unit := do
  modifyWorld fun w =>
    { w with
      written := w.written.filter fun x => !(x.writer = pid ∧ time < x.at_)
      holds := w.holds.map fun h => if h.holder = pid then { h with last := min h.last time } else h
      lives := w.lives.map fun l =>
        if l.pid = pid then { l with finish := l.finish.map (min time) } else l }
  modifyProcess fun p =>
    { p with jobs := p.jobs.map fun j =>
        if j.pid = pid ∧ time < j.finish then { j with finish := time, status := .signal signal }
        else j }

def sendSignal (ev : Evaluator) (signal pid : Nat) : Run Unit := do
  let p ← process
  match (← world).lives.find? fun l => l.pid = pid with
  | none =>
    complainShell "kill: No such process\n"
    setStatus 1
  | some l =>
    if signal = 0 then return
    else if pid = p.pid then deliver ev signal
    else if l.finish.isNone then
      modifyWorld fun w => { w with signals := ⟨pid, p.time, signal⟩ :: w.signals }
    else if !isHarmless signal then cutShort pid p.time signal

/-- The signal that the options of `kill` name, and the targets; or an option that is none. -/
def killOptions : List Octets → Except Octets (Nat × List Octets)
  | ['-', 's'] :: name :: r => named (signal? name) name r
  | ('-' :: 's' :: c :: name) :: r =>
    named ((signal? ('s' :: c :: name)).orElse fun _ => signal? (c :: name)) ('s' :: c :: name) r
  | ('-' :: c :: name) :: r => named (signal? (c :: name)) (c :: name) r
  | r => .ok (15, r)
where
  named (signal : Option Nat) (name : Octets) (r : List Octets) :
      Except Octets (Nat × List Octets) :=
    match signal with
    | some n => .ok (n, r)
    | none => .error name

def killUsage : String :=
  "kill: Usage: kill [-s sigspec | -signum | -sigspec] [pid | job]... or\n" ++
    "kill -l [exitstatus]"

def kill (ev : Evaluator) (args : List Octets) : Run Unit := do
  setStatus 0
  match killOptions args with
  | .error name =>
    complainShell ("kill: Illegal option -" ++ Text.toText (name.take 1))
    setStatus 2
  | .ok (_, []) =>
    complainShell killUsage
    setStatus 2
  | .ok (signal, targets) =>
    for target in (if targets.head? = some ['-', '-'] then targets.drop 1 else targets) do
      match Text.natural? target with
      | some pid => sendSignal ev signal pid
      | none =>
        complainShell ("kill: Illegal number: " ++ Text.toText target)
        setStatus 2

end Overseer.Shell
