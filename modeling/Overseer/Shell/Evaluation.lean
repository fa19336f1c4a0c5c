import Overseer.Shell.Builtin

/-! Running commands: how they follow each other, where their input and output lead, and in
which process they run. -/

namespace Overseer.Shell

open Text (Octets)
open Programs (Run Process Handle)
open Programs.Run

/-- Options of a shell that is started. -/
structure Start where
  script : Option Octets := none
  exitOnError : Bool := false
  name : Octets
  arguments : List Octets := []

/-- Reads the arguments of a shell: the script to run may be one of them. -/
def Start.read (s : Start) (command : Bool) : List Octets → Start × Option Octets
  | [] => (s, none)
  | ('-' :: c :: flags) :: r =>
    let letters := c :: flags
    Start.read { s with exitOnError := s.exitOnError || letters.contains 'e' }
      (command || letters.contains 'c') r
  | a :: r =>
    if command then
      ({ s with script := some a, name := r.head?.getD s.name, arguments := r.drop 1 }, none)
    else ({ s with name := a, arguments := r }, some a)

/-- Does what a shell does until it ends; the trap for that is run then. -/
def untilExit (ev : Evaluator) (body : Run Unit) : Run Unit := do
  let r ← attempt body
  let status := endOf r (← process).status
  match status, (← process).traps.lookup 0 with
  | .code n, some trap =>
    setStatus n
    match parse trap with
    | .ok c =>
      ev.run false c
      throw (.ended status)
    | .error _ => throw (.ended status)
  | _, _ => throw (.ended status)

/-- The whole life of a shell, which its last command may take over. -/
def runScript (ev : Evaluator) (start : Start) (script : Octets) : Run Unit := do
  modifyProcess fun p =>
    { p with shellPid := p.pid, name := start.name, arguments := start.arguments, status := 0
             bindings := p.bindings.filter fun v => p.exported.contains v.1
             functions := [], jobs := [], traps := [], exitOnError := start.exitOnError
             tested := false }
  untilExit ev do
    match parse script with
    | .ok c => ev.run true c
    | .error e => abandon ("Syntax error: " ++ e)

/-- The shell's own words for a file that cannot be read. -/
def readFault (e : FileError) : String :=
  if e = .notFound then "No such file" else fileFault e

def shell (ev : Evaluator) (name : Octets) (args : List Octets) : Run Unit := do
  let (start, file) := Start.read { name } false args
  if start.script.isNone ∧ args.getLast? = some ['-', 'c'] then
    complain name "0: -c requires an argument"
    exit 2
  match start.script, file with
  | some script, _ => runScript ev start script
  | none, some path =>
    match ← openFlow path with
    | .ok f => runScript ev start f.bytes
    | .error e =>
      complain name ("0: cannot open " ++ Text.toText path ++ ": " ++ readFault e)
      exit 2
  | none, none => runScript ev start (← input 0).bytes

/-- Directories in which programs are found. -/
def programDirs : List String := ["/bin/", "/usr/bin/"]

/-- The name of a program without its directory, if that is one of programs. -/
def baseName (name : String) : String :=
  match programDirs.findSome? fun d => Text.after? d name.toList with
  | some r => String.ofList r
  | none => name

def isProgram (name : String) : Bool := baseName name = "sh" || (program? (baseName name)).isSome

/-- Files and directories of every machine that are no programs. -/
def systemPaths : List String :=
  ["/", "/bin", "/usr", "/usr/bin", "/usr/lib", "/lib", "/sbin", "/etc", "/etc/passwd", "/dev",
    "/dev/null", "/dev/zero", "/proc", "/sys", "/tmp", "/var", "/home", "/root", "/opt", "/run"]

/-- Runs a program in the process at hand. -/
def runProgram (ev : Evaluator) (name : Octets) (args : List Octets) : Run Unit := do
  let base := baseName (Text.toText name)
  if base = "sh" then shell ev name args
  else match program? base with
    | some f => throw (.ended (.code (← f args)))
    | none =>
      if name.contains '/' ∧ (systemPaths.contains (Text.toText name) ∨
          (← world).tree.pathExists (Text.toText name)) then
        complainShell (Text.toText name ++ ": Permission denied")
        exit 126
      else
        complainShell (Text.toText name ++ ": not found")
        exit 127

/-- Runs a program in a process of its own, or in the shell's if that has nothing else to do. -/
def external (ev : Evaluator) (last : Bool) (words : List Octets) : Run Unit := do
  let name := words.headD []
  if last ∧ (← process).traps.isEmpty then
    if isProgram (Text.toText name) then become words
    runProgram ev name (words.drop 1)
  else
    let job ← fork (some words) (← process).time (runProgram ev name (words.drop 1))
    awaitJob ev job

/-- Opens the targets of redirections, from left to right. -/
def redirect (ev : Evaluator) : List (Nat × Opening × Word) → Run Bool
  | [] => return true
  | (descriptor, opening, w) :: r => do
    let text ← expandText ev w
    match ← target opening text with
    | .ok h =>
      modifyProcess fun p =>
        { p with descriptors :=
            (h.toList.map fun h => (descriptor, h)) ++
              p.descriptors.filter (·.1 ≠ descriptor) }
      redirect ev r
    | .error message =>
      complainShell message
      return false
where
  target (opening : Opening) (text : Octets) : Run (Except String (Option Handle)) := do
    let path := Text.toText text
    match opening, path with
    | .same, "-" => return .ok none
    | .same, _ =>
      match Text.natural? text with
      | some n =>
        match ← handle n with
        | some h => return .ok (some h)
        | none => return .error (toString n ++ ": Bad file descriptor")
      | none => return .error "Bad fd number"
    | .text, _ => return .ok (some (.flow (← newFlow (Programs.Flow.ofBytes text))))
    | .read, _ =>
      match ← openFlow text with
      | .ok f => return .ok (some (.flow (← newFlow f)))
      | .error e => return .error ("cannot open " ++ path ++ ": " ++ readFault e)
    | _, "/dev/null" => return .ok (some .nothing)
    | _, "/dev/stdout" => return .ok (← handle 1)
    | _, "/dev/stderr" => return .ok (← handle 2)
    | _, _ =>
      match (← world).tree.openAppend path with
      | .error e => return .error ("cannot create " ++ path ++ ": " ++ createFault e)
      | .ok (tree, id) =>
        let tree := if opening = .write then tree.truncate id else tree
        modifyWorld fun w => { w with tree }
        return .ok (some (.file id))
  createFault (e : FileError) : String :=
    if e = .notFound then "Directory nonexistent" else fileFault e

/-- Runs a function of the script with arguments of its own. -/
def call (ev : Evaluator) (body : Command) (args : List Octets) : Run Unit := do
  let caller ← process
  modifyProcess fun p => { p with arguments := args, locals := [], loops := 0 }
  let r ← attempt (ev.run false body)
  for (name, former) in (← process).locals do
    modifyProcess fun p =>
      { p with bindings := (former.toList.map fun v => (name, v)) ++
          p.bindings.filter (·.1 ≠ name) }
  modifyProcess fun p =>
    { p with arguments := caller.arguments, locals := caller.locals, loops := caller.loops }
  match r with
  | .ok () | .error .endCall => return
  | .error e => throw e

/-- Runs a command of the shell or a program. -/
def runNamed (ev : Evaluator) (last : Bool) (words : List Octets) : Run Unit :=
  match builtin? ev (String.ofList (words.headD [])) with
  | some f => f (words.drop 1)
  | none => external ev last words

/-- Runs the words of a simple command. -/
def dispatch (ev : Evaluator) (last : Bool) (words : List Octets) : Run Unit := do
  let name := words.headD []
  let args := words.drop 1
  match (← process).functions.lookup name with
  | some body => call ev body args
  | none =>
    match String.ofList name, args with
    | "exec", [] => setStatus 0
    | "exec", args => do
      if isProgram (Text.toText (args.headD [])) then become args
      runProgram ev (args.headD []) (args.drop 1)
    | "command", args => runNamed ev last args
    | _, _ => runNamed ev last words

/-- Whether a word runs a command, whose status is then the one of an assignment. -/
def runsCommand (w : Word) : Bool :=
  w.any fun part => match part with
    | .output _ _ => true
    | _ => false

/-- Sets variables for one command, or for good where there is none. -/
def runSimple (ev : Evaluator) (last : Bool) (assignments : List (Octets × Word))
    (words : List Word) : Run Unit := do
  let fields ← expandFields ev words
  let kept := (← process).bindings
  let keptExports := (← process).exported
  for (name, w) in assignments do setVariable name (← expandText ev w)
  if fields.isEmpty then
    let status := (← process).outputStatus
    setStatus (if (words ++ assignments.map (·.2)).any runsCommand then status else 0)
  else
    modifyProcess fun p => { p with exported := assignments.map (·.1) ++ p.exported }
    dispatch ev (last && assignments.isEmpty) fields
    if !assignments.isEmpty then
      modifyProcess fun p => { p with bindings := kept, exported := keptExports }

/-- Where commands fail and a script asks for it, the shell ends. -/
def checkError : Run Unit := do
  let p ← process
  if p.exitOnError ∧ !p.tested ∧ p.status ≠ 0 then exit p.status

/-- Runs a command whose status is tested. -/
def runTested (ev : Evaluator) (c : Command) : Run Nat := do
  let tested := (← process).tested
  modifyProcess fun p => { p with tested := true }
  ev.run false c
  modifyProcess fun p => { p with tested }
  return (← process).status

/-- Runs the body of a loop once; the answer tells whether the loop goes on. -/
def runBody (ev : Evaluator) (body : Command) : Run Bool := do
  modifyProcess fun p => { p with loops := p.loops + 1 }
  let r ← attempt (ev.run false body)
  modifyProcess fun p => { p with loops := p.loops - 1 }
  match r with
  | .ok () => return true
  | .error (.breakLoop n) => if 1 < n then throw (.breakLoop (n - 1)) else return false
  | .error (.continueLoop n) => if 1 < n then throw (.continueLoop (n - 1)) else return true
  | .error e => throw e

def runEach (ev : Evaluator) (name : Octets) (body : Command) : List Octets → Run Unit
  | [] => return
  | value :: r => do
    setVariable name value
    if ← runBody ev body then runEach ev name body r

/-- The first branch that has a pattern for a text. -/
def chooseBranch (ev : Evaluator) (text : Octets) :
    List (List Word × Command) → Run (Option Command)
  | [] => return none
  | (patterns, body) :: r => do
    if ← anyFits patterns then return some body else chooseBranch ev text r
where
  anyFits : List Word → Run Bool
    | [] => return false
    | w :: r => do
      if fits (marked (← ev.expand w)) text then return true else anyFits r

/-- Runs commands at the same time, each reading what the one before it writes. -/
def runPipeline (ev : Evaluator) (start : Nat) (source : Option Nat) :
    List Command → Run (List Programs.Job)
  | [] => return []
  | c :: r => do
    let fromSource (p : Process) : Process := match source with
      | some id => { p with descriptors := (0, .flow id) :: p.descriptors.filter (·.1 ≠ 0) }
      | none => p
    match r with
    | [] =>
      return [← fork none start do
        modifyProcess fromSource
        untilExit ev (ev.run true c)]
    | r =>
      let pipe ← newPipe
      let job ← fork none start do
        modifyProcess fromSource
        modifyProcess fun p =>
          { p with descriptors := (1, .pipe pipe) :: p.descriptors.filter (·.1 ≠ 1) }
        untilExit ev (ev.run true c)
      let flow ← newFlow (← drain pipe)
      return job :: (← runPipeline ev start (some flow) r)

/-- A process in the background starts a little after the shell has gone on. -/
def backgroundDelay : Nat := 500

def runBackground (ev : Evaluator) (c : Command) : Run Unit := do
  let job ← fork none ((← process).time + backgroundDelay) do
    modifyProcess fun p =>
      { p with descriptors := (0, .nothing) :: p.descriptors.filter (·.1 ≠ 0) }
    untilExit ev (ev.run true c)
  modifyProcess fun p => { p with jobs := p.jobs ++ [job], status := 0 }

/-- One step of running a command. With `last`, its process has nothing to do after it. -/
def runCommand (ev : Evaluator) (last : Bool) (c : Command) : Run Unit := do
  advance ev (← process).time
  match c with
  | .skip => setStatus 0
  | .simple assignments words =>
    runSimple ev last assignments words
    checkError
  | .redirected (.simple [] words) targets => do
    let fields ← expandFields ev words
    if fields = ["exec".toList] then
      holdPipes
      if ← redirect ev targets then setStatus 0 else exit 2
    else runRedirected targets (.simple [] words)
  | .redirected body targets => runRedirected targets body
  | .pipeline cs => do
    let jobs ← runPipeline ev (← process).time none cs
    for j in jobs do advance ev j.finish
    match jobs.getLast? with
    | some j => awaitJob ev j
    | none => return
    checkError
  | .negated body => do
    let status ← runTested ev body
    setStatus (if status = 0 then 1 else 0)
  | .both a b => do if (← runTested ev a) = 0 then ev.run last b
  | .either a b => do if (← runTested ev a) ≠ 0 then ev.run last b
  | .sequence cs => runSequence cs
  | .background body => runBackground ev body
  | .subshell body =>
    if last ∧ (← process).traps.isEmpty then ev.run true body
    else
      let job ← fork none (← process).time (untilExit ev (ev.run true body))
      awaitJob ev job
      checkError
  | .conditional test yes no => do
    if (← runTested ev test) = 0 then ev.run last yes else ev.run last no
  | .loop untilTrue test body entered => do
    let status := (← process).status
    if ((← runTested ev test) = 0) = untilTrue then setStatus (if entered then status else 0)
    else if ← runBody ev body then ev.run last (.loop untilTrue test body true)
    else setStatus 0
  | .forEach name words body => do
    let values ← match words with
      | some ws => expandFields ev ws
      | none => pure (← process).arguments
    setStatus 0
    runEach ev name body values
  | .choose w branches => do
    let text ← expandText ev w
    match ← chooseBranch ev text branches with
    | some body =>
      setStatus 0
      ev.run last body
    | none => setStatus 0
  | .define name body =>
    modifyProcess fun p => { p with functions := (name, body) :: p.functions, status := 0 }
where
  runRedirected (targets : List (Nat × Opening × Word)) (body : Command) : Run Unit := do
    let descriptors := (← process).descriptors
    if ← redirect ev targets then
      if last then ev.run true body
      else
        let r ← attempt (ev.run false body)
        modifyProcess fun p => { p with descriptors }
        match r with
        | .ok () => return
        | .error e => throw e
    else
      modifyProcess fun p => { p with descriptors }
      setStatus 2
  runSequence : List Command → Run Unit
    | [] => return
    | [c] => ev.run last c
    | c :: r => do
      ev.run false c
      runSequence r

/-- Evaluation in at most so many steps, one inside another or one loop after another. -/
def evaluator : Nat → Evaluator
  | 0 => ⟨fun _ _ => exit 125, fun _ => exit 125⟩
  | n + 1 =>
    ⟨fun last c => runCommand (evaluator n) last c, fun w => expandParts (evaluator n) w⟩

/-- Enough for any script that comes to an end within a few seconds. -/
def stepLimit : Nat := 1000000

def evaluation : Evaluator := evaluator stepLimit

end Overseer.Shell
