import Overseer.Execution
import Overseer.FileTree.Changes

/-! The command line. What an invocation needs of the system is read into a tree of files,
the invocation is executed on it, and what comes of that is printed and written back. -/

namespace Overseer.Main

/-- The answer of an action, or nothing if it fails. -/
def tried {α : Type} (act : IO α) : IO (Option α) := do
  try return some (← act)
  catch _ => return none

def readBytes? (path : String) : IO (Option ByteArray) := tried (IO.FS.readBinFile path)

/-- The names in a directory; none if there is no such directory. -/
def namesIn (path : String) : IO (List String) := do
  match ← tried do (← IO.FS.realPath path).readDir with
  | some entries => return entries.toList.map (·.fileName)
  | none => return []

def isDirectory (path : String) : IO Bool := do
  return (← tried do (← IO.FS.realPath path).isDir).getD false

/-- Copies a file into the tree, if it can be read. -/
def copyFile (t : FileTree) (path : String) : IO FileTree := do
  return match ← readBytes? path with
    | some data => t.addFile path data
    | none => t

def copyFiles (t : FileTree) (directory : String) (names : List String) : IO FileTree :=
  names.foldlM (fun t name => copyFile t (Environment.joinPath directory name)) t

/-- An empty tree but for the directory that relative paths start from. -/
def treeAt (directory : String) : FileTree :=
  let t : FileTree := ⟨.dir [], #[], []⟩
  { (t.makeDirs directory).1 with
    working := ((Path.pieces directory.toList).filter (· ≠ [])).map String.ofList }

/-- The files that tell of one process. -/
def copyProcess (t : FileTree) (directory : String) : IO FileTree := do
  let t ← copyFiles t directory ["stat", "comm", "cmdline", "io"]
  let tasks := Environment.joinPath directory "task"
  (← namesIn tasks).foldlM (fun t name =>
    copyFile t (Environment.joinPath (Environment.joinPath tasks name) "children")) t

def processRoot : String := "/proc"

/-- The time: that of the system's start, and the seconds since then. -/
def timeOf (t : FileTree) : Timestamp :=
  let start := ((Procfs.bootSeconds? t processRoot).getD 0).toNat
  let uptime := (Procfs.readText? t (Procfs.below processRoot "uptime")).getD []
  let (whole, fraction) := (uptime.takeWhile Text.isDigit,
    ((uptime.dropWhile Text.isDigit).drop 1).takeWhile Text.isDigit)
  .ofMillis (1000 * (start + Text.digitsValue 0 whole) +
    Text.digitsValue 0 ((fraction ++ ['0', '0', '0']).take 3))

/-- The files that tell of the system itself. -/
def systemFiles : IO FileTree := copyFiles (treeAt "/") processRoot ["stat", "uptime"]

def look : IO View := do
  let t ← (← namesIn processRoot).foldlM (fun t name => do
    if (Text.unsigned32? name.toList).isSome then
      copyProcess t (Environment.joinPath processRoot name)
    else return t) (← systemFiles)
  let now := timeOf t
  return ⟨(Procfs.openAt t processRoot none).source t now, now, ← IO.monoNanosNow⟩

/-- Waits, up to some weeks. -/
def pause (milliseconds : Nat) : IO Unit := IO.sleep (.ofNat (min milliseconds (UInt32.size - 1)))

def lookout : Lookout IO := ⟨look, pause⟩

def environment : IO Environment := do
  return {
    home := ← IO.getEnv "HOME", configHome := ← IO.getEnv "XDG_CONFIG_HOME"
    dataHome := ← IO.getEnv "XDG_DATA_HOME", logFilter := ← IO.getEnv "RUST_LOG" }

/-- The directories above a path, nearest first, and what stands in place of one. -/
def copyAbove (t : FileTree) (path : String) : IO FileTree :=
  ((FileTree.ancestors path.toList).drop 1).reverse.foldlM (fun t directory => do
    let directory := String.ofList directory
    if ← isDirectory directory then return (t.makeDirs directory).1
    else copyFile t directory) t

/-- What an invocation reads of the file system: its settings, and the logs that it adds to. -/
def filesFor (e : Environment) (i : CommandLine.Invocation) (t : FileTree) : IO FileTree := do
  let t ← match i.settingsPath.orElse fun _ => e.settingsPath with
    | some path => copyFile t path
    | none => pure t
  match i.task with
  | .run l =>
    let (s, _) := i.settings e t
    let path := (Execution.runOptions s l (l.command.headD "")).2.logPath
    let t ← copyAbove t path
    let directory := String.ofList ((Path.parent? path.toList).getD [])
    copyFiles t directory (← namesIn directory)
  | _ => return t

/-- The id of this process, to which a link among the processes leads. -/
def ownPid : IO Pid := do
  let target ← tried (IO.FS.realPath (Procfs.below processRoot "self"))
  return (target.bind fun path =>
    (Path.fileName? path.toString.toList).bind Text.unsigned32?).getD 0

def apply : FileTree.Change → IO Unit
  | .remove path => IO.FS.removeFile path
  | .makeDir path => IO.FS.createDirAll path
  | .write path bytes => IO.FS.writeBinFile path bytes

def levelName : Level → String
  | .trace => "TRACE"
  | .debug => "DEBUG"
  | .info => "INFO"
  | .warn => "WARN"
  | .error => "ERROR"

/-- A failure with its causes, each on a line. -/
def failureText (f : Failure) : String :=
  match f.chain with
  | [] => ""
  | first :: causes => "Error: " ++ first ++ "\n" ++ String.join (causes.map ("  " ++ · ++ "\n"))

def usage : String :=
  "Resource monitoring and log capture for supervised instances\n\n" ++
  "  tree [PID]         Print the process tree rooted at PID\n" ++
  "  family [PID]       Print the flat list of PID and its descendants\n" ++
  "  run [--] PROGRAM   Spawn a program and capture its output into a rotating log\n\n" ++
  "Options of all: --config PATH, --log-level LEVEL\n" ++
  "Options of tree and family: --samples N, --interval-ms N, --json, --no-children (family)\n" ++
  "Options of run: --name NAME, --log-dir DIR, --max-bytes N, --max-files N, --interval-ms N\n"

end Overseer.Main

open Overseer Overseer.Main

def main (words : List String) : IO UInt32 := do
  let e ← environment
  let directory := (← IO.currentDir).toString
  let tree ← match CommandLine.parse words with
    | .ok i => filesFor e i (treeAt directory)
    | .error refusal => do
      if refusal = .helpWanted then IO.print usage else IO.eprint usage
      pure (treeAt directory)
  let ended ← execute lookout ⟨e, tree, timeOf (← systemFiles), ← ownPid⟩ words
  for event in ended.events do IO.eprintln (levelName event.level ++ " " ++ event.message)
  IO.print ended.output
  IO.eprint ended.remark
  if let some f := ended.failure then IO.eprint (failureText f)
  for change in FileTree.changes tree ended.tree do apply change
  return .ofNat ended.code
