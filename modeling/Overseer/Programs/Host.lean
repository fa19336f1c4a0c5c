import Overseer.Programs.Session
import Overseer.Source.Procfs
import Overseer.Source.Table
import Overseer.Text.Utf8

/-! The processes of a machine at one moment, and the two ways to learn of them: from a
directory of process files, and from a table. -/

namespace Overseer.Programs

structure HostProcess where
  pid : Nat
  parent : Nat
  words : List String
  state : RunState := .sleeping

/-- Processes in the order of their start. -/
structure Host where
  processes : List HostProcess

namespace HostProcess

/-- Names of processes are cut to so many bytes. -/
def maxName : Nat := 15

/-- The file name of the program. -/
def name (p : HostProcess) : String :=
  Text.toText ((Text.ofText (String.ofList
    ((Path.fileName? (p.words.headD "").toList).getD []))).take maxName)

/-- A process that has ended and still has an entry has given back its memory. -/
def isGone (p : HostProcess) : Bool := p.state = .zombie

def residentPages (p : HostProcess) : Nat := if p.isGone then 0 else 400

def virtualBytes (p : HostProcess) : Nat := if p.isGone then 0 else 4194304

def stateLetter (p : HostProcess) : Char :=
  match p.state with
  | .running => 'R'
  | .sleeping => 'S'
  | .stopped => 'T'
  | .zombie => 'Z'
  | .unknown => 'X'

/-- Ticks after the start of the machine at which all processes started. -/
def startTicks : Nat := 1000

/-- The status line: the fields that are read, and zeros for all others. -/
def statLine (p : HostProcess) : String :=
  let zeros (n : Nat) := List.replicate n "0"
  let fields := [String.ofList [p.stateLetter], toString p.parent] ++ zeros 15 ++ ["1", "0",
    toString startTicks, toString p.virtualBytes, toString p.residentPages] ++ zeros 28
  toString p.pid ++ " (" ++ p.name ++ ") " ++ " ".intercalate fields ++ "\n"

/-- The arguments, each with a zero byte after it. -/
def commandLine (p : HostProcess) : ByteArray :=
  if p.isGone then .empty
  else p.words.foldl (fun out w => (out ++ w.toUTF8).push 0) .empty

end HostProcess

namespace Host

/-- The processes of a performance at a time. -/
def ofLives (lives : List Life) (time : Nat) : Host :=
  ⟨(lives.filter fun l => l.start ≤ time && l.finish.all (time < ·)).map fun l =>
    { pid := l.pid, parent := l.parent, words := l.words.map Text.toText }⟩

def empty : Host := ⟨[]⟩

def add (h : Host) (p : HostProcess) : Host := ⟨h.processes ++ [p]⟩

/-- The processes of a kind, all others gone. -/
def keep (h : Host) (p : HostProcess → Bool) : Host := ⟨h.processes.filter p⟩

def children (h : Host) (pid : Nat) : List HostProcess := h.processes.filter (·.parent = pid)

/-- What a signal does to the process that it is sent to: it stops, goes on, or ends and
waits to be noticed. -/
def signal (h : Host) (pid number : Nat) : Host :=
  ⟨h.processes.map fun p =>
    if p.pid ≠ pid then p
    else match number with
      | 0 | 17 | 23 | 28 => p
      | 18 => { p with state := .sleeping }
      | 19 | 20 | 21 | 22 => { p with state := .stopped }
      | _ => { p with state := .zombie }⟩

/-- Seconds since 1970 at which the machine started. -/
def bootSeconds : Nat := 1699999000

/-- The directory of process files. -/
def fileTree (h : Host) : FileTree :=
  let t := FileTree.empty.addFile "/proc/stat" ("btime " ++ toString bootSeconds ++ "\n").toUTF8
  h.processes.foldl (fun t p =>
    let dir := "/proc/" ++ toString p.pid ++ "/"
    let t := t.addFile (dir ++ "stat") p.statLine.toUTF8
    let t := t.addFile (dir ++ "comm") (p.name ++ "\n").toUTF8
    let t := t.addFile (dir ++ "cmdline") p.commandLine
    t.addFile (dir ++ "task/" ++ toString p.pid ++ "/children")
      (String.join ((h.children p.pid).map fun c => toString c.pid ++ " ")).toUTF8) t

/-- The source that reads the directory. -/
def filesSource (h : Host) (now : Timestamp) : Source :=
  let t := h.fileTree
  (Procfs.openAt t "/proc" none).source t now

def observation (now : Timestamp) (p : HostProcess) (command : String) : Observation :=
  let started := bootSeconds + HostProcess.startTicks / 100
  let (startedAt, uptime) := Procfs.startAndUptime now (UInt64.ofNat started)
  { info :=
      { pid := .ofNat p.pid, parent := .ofNat p.parent, name := p.name, command
        state := p.state, startedAt, threads := 1, uptime
        residentBytes := UInt64.ofNat p.residentPages * Procfs.defaultPageBytes
        virtualBytes := UInt64.ofNat p.virtualBytes }
    cpuMillis := some 0 }

/-- The table of the processes. One that has ended has the command line that it had when it
was read before, if it was. -/
def table (h : Host) (before : Host) (now : Timestamp) : Table :=
  h.processes.foldl (fun t p =>
    let words := match before.processes.find? (·.pid = p.pid) with
      | some q => q.words
      | none => if p.isGone then [] else p.words
    t.insertObservation (observation now p (" ".intercalate words))) {}

end Host

end Overseer.Programs
