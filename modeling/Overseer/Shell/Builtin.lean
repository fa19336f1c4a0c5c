import Overseer.Shell.Tools
import Overseer.Shell.Waiting

/-! Commands of the shell itself, which change its variables, options and arguments, or where
it goes on. -/

namespace Overseer.Shell

open Text (Octets)
open Programs (Run)
open Programs.Run

/-- The parts that `read` gives to its variables: fields, the last one with all the rest. -/
def readFields : Nat → Octets → List Octets
  | 0, _ => []
  | 1, s => [((s.dropWhile isSeparator).reverse.dropWhile isSeparator).reverse]
  | n + 1, s =>
    let s := s.dropWhile isSeparator
    s.takeWhile (!isSeparator ·) :: readFields n (s.dropWhile (!isSeparator ·))
where
  isSeparator (c : Char) : Bool := c == ' ' || c == '\t' || c == '\n'

/-- Takes a line from the input. Without `raw`, a backslash takes the meaning from what
follows it. -/
def readLine (raw : Bool) (names : List Octets) : Run Nat := do
  let f ← input 0
  let text := f.bytes
  let line := text.takeWhile (· ≠ '\n')
  let whole := line.length < text.length
  let taken := f.take (if whole then line.length + 1 else line.length)
  setInput 0 (f.drop taken.bytes.length)
  modifyProcess fun p => { p with time := max p.time (if whole then taken.endsAt else f.endsAt) }
  let line := if raw then line else line.filter (· ≠ '\\')
  let values := readFields names.length line
  for (name, i) in names.zipIdx do setVariable name (values.getD i [])
  return if whole then 0 else 1

/-- Sets the variables that words with an equals sign give, and does something with every
name. -/
def declare (each : Octets → Run Unit) (words : List Octets) : Run Unit := do
  for word in words do
    match assignment? word with
    | some (name, value) =>
      each name
      setVariable name value
    | none => each word
  setStatus 0

def exportName (name : Octets) : Run Unit :=
  modifyProcess fun p => { p with exported := name :: p.exported }

/-- Gives a variable back its value at the end of the function at hand. -/
def makeLocal (name : Octets) : Run Unit :=
  modifyProcess fun p => { p with locals := (name, p.bindings.lookup name) :: p.locals }

/-- Turns options of the shell on or off. -/
def setFlags (on : Bool) (flags : Octets) : Run Unit := do
  if flags.contains 'e' then modifyProcess fun p => { p with exitOnError := on }
  if flags.contains 'u' then modifyProcess fun p => { p with exitOnUnset := on }

/-- Changes options or arguments of the shell. -/
def setOptions : List Octets → Run Unit
  | [] => setStatus 0
  | ['-', '-'] :: r => setArguments r
  | ('-' :: flags) :: r => do
    setFlags true flags
    setOptions r
  | ('+' :: flags) :: r => do
    setFlags false flags
    setOptions r
  | r => setArguments r
where
  setArguments (r : List Octets) : Run Unit := do
    modifyProcess fun p => { p with arguments := r }
    setStatus 0

/-- The number that a command is given, if any. -/
def countArgument (command : String) (args : List Octets) (default : Nat) : Run Nat := do
  match args with
  | [] => return default
  | a :: _ =>
    match Text.natural? a with
    | some n => return n
    | none => abandon (command ++ ": Illegal number: " ++ Text.toText a)

/-- Leaves a loop, if there is one. -/
def leaveLoop (leave : Nat → Programs.Leave) (command : String) (args : List Octets) :
    Run Unit := do
  let n ← countArgument command args 1
  let loops := (← process).loops
  if loops = 0 then setStatus 0 else throw (leave (min n loops))

/-- Waits for processes in the background. -/
def waitJobs (ev : Evaluator) (args : List Octets) : Run Unit := do
  setStatus 0
  if args.isEmpty then
    for j in (← process).jobs do advance ev j.finish
    setStatus 0
  else
    for a in args do
      match (← process).jobs.find? fun j => some j.pid = Text.natural? a with
      | some j =>
        advance ev j.finish
        takeStatus j.status
      | none => setStatus 127

/-- Commands of the shell itself. -/
def builtin? (ev : Evaluator) (name : String) : Option (List Octets → Run Unit) :=
  match name with
  | ":" | "true" | "umask" => some fun _ => setStatus 0
  | "readonly" => some (declare fun _ => return)
  | "local" => some (declare makeLocal)
  | "export" => some (declare exportName)
  | "false" => some fun _ => setStatus 1
  | "echo" => some fun args => do
    emit 1 (Programs.shellEcho args)
    setStatus 0
  | "printf" => some fun args => do
    setStatus (← printStatus false (fun a =>
      complainShell ("printf: " ++ Text.toText a ++ ": expected numeric value")) args)
  | "test" => some fun args => do setStatus (← testStatus args)
  | "[" => some fun args => do
    if args.getLast? = some [']'] then setStatus (← testStatus args.dropLast)
    else
      complainShell "[: missing ]"
      setStatus 2
  | "exit" => some fun args => do exit (← countArgument name args (← process).status)
  | "return" => some fun args => do
    setStatus (← countArgument name args (← process).status)
    throw .endCall
  | "break" => some (leaveLoop .breakLoop name)
  | "continue" => some (leaveLoop .continueLoop name)
  | "kill" => some (kill ev)
  | "wait" => some (waitJobs ev)
  | "set" => some setOptions
  | "unset" => some fun args => do
    modifyProcess fun p =>
      { p with bindings := p.bindings.filter (!args.contains ·.1)
               functions := p.functions.filter (!args.contains ·.1) }
    setStatus 0
  | "shift" => some fun args => do
    let n ← countArgument name args 1
    if (← process).arguments.length < n then abandon "shift: can't shift that many"
    modifyProcess fun p => { p with arguments := p.arguments.drop n }
    setStatus 0
  | "read" => some fun args => do
    let (raw, names) := match args with
      | ['-', 'r'] :: r => (true, r)
      | r => (false, r)
    setStatus (← readLine raw names)
  | "eval" => some fun args => do
    match parse (Programs.joinWith [' '] args) with
    | .ok c =>
      setStatus 0
      ev.run false c
    | .error e => abandon ("Syntax error: " ++ e)
  | "." => some fun args => do
    match args with
    | [] => setStatus 0
    | path :: _ =>
      match ← openFlow path with
      | .ok f =>
        match parse f.bytes with
        | .ok c =>
          setStatus 0
          ev.run false c
        | .error e => abandon ("Syntax error: " ++ e)
      | .error _ => abandon (".: cannot open " ++ Text.toText path ++ ": No such file")
  | "trap" => some fun args => do
    match args with
    | action :: names =>
      for name in names do
        match signal? name with
        | some n =>
          modifyProcess fun p =>
            { p with traps := (if action = ['-'] then [] else [(n, action)]) ++
                p.traps.filter (·.1 ≠ n) }
        | none => complainShell ("trap: " ++ Text.toText name ++ ": bad trap")
      setStatus 0
    | [] => setStatus 0
  | "pwd" => some fun _ => do
    emit 1 (Text.ofText ("/" ++ "/".intercalate (← world).tree.working ++ "\n"))
    setStatus 0
  | "cd" => some fun args => do
    if args.isEmpty then
      setStatus 0
      return
    let path := Text.toText (args.headD [])
    let tree := (← world).tree
    match tree.resolve true path with
    | .ok (.found l (.dir _)) =>
      modifyWorld fun w => { w with tree := { w.tree with working := l } }
      setStatus 0
    | _ =>
      complainShell ("cd: can't cd to " ++ path)
      setStatus 2
  | _ => none

end Overseer.Shell
