import Overseer.Calendar
import Overseer.Json
import Overseer.Pid

/-! What is known of one process at one moment. -/

namespace Overseer

inductive RunState where
  | running | sleeping | stopped | zombie | unknown
  deriving DecidableEq, Repr

def RunState.text : RunState → String
  | running => "running"
  | sleeping => "sleeping"
  | stopped => "stopped"
  | zombie => "zombie"
  | unknown => "unknown"

structure Snapshot where
  pid : Pid
  parent : Pid := 0
  name : String := ""
  command : String := ""
  state : RunState := .unknown
  startedAt : Option Timestamp := none
  cpuPercent : Float := 0
  residentBytes : UInt64 := 0
  virtualBytes : UInt64 := 0
  threads : UInt32 := 0
  uptime : UInt64 := 0
  readBytes : UInt64 := 0
  writtenBytes : UInt64 := 0

namespace Snapshot

/-- A process that does not exist, or cannot be read, keeps only its id. -/
def missing (pid : Pid) : Snapshot := { pid }

def isValid (s : Snapshot) : Bool := 0 < s.pid && s.name != ""

theorem isValid_missing (pid : Pid) : (missing pid).isValid = false := by
  simp [missing, isValid]

private def word64 (n : UInt64) : Json := .int n.toNat

private def word32 (n : UInt32) : Json := .int n.toNat

def startedMember (s : Snapshot) : List (String × Json) :=
  match s.startedAt with
  | some t => [("startedAt", .str t.text)]
  | none => []

/-- All fields, as a flat list of processes gives them. -/
def toJson (s : Snapshot) : Json :=
  .obj ([("pid", word32 s.pid), ("parentPid", word32 s.parent), ("name", .str s.name),
      ("commandLine", .str s.command), ("status", .str s.state.text)] ++ s.startedMember ++
    [("cpuPercent", .float s.cpuPercent), ("memoryRssBytes", word64 s.residentBytes),
      ("memoryVmsBytes", word64 s.virtualBytes), ("threadCount", word32 s.threads),
      ("uptimeSeconds", word64 s.uptime), ("ioReadBytes", word64 s.readBytes),
      ("ioWriteBytes", word64 s.writtenBytes)])

/-- What a node of a tree gives before its children. -/
def nodeMembers (s : Snapshot) : List (String × Json) :=
  [("pid", word32 s.pid), ("name", .str s.name), ("commandLine", .str s.command),
    ("status", .str s.state.text)] ++ s.startedMember ++
  [("resources", .obj
    [("cpuPercent", .float s.cpuPercent), ("memoryRssBytes", word64 s.residentBytes),
      ("memoryVmsBytes", word64 s.virtualBytes), ("threadCount", word32 s.threads),
      ("uptimeSeconds", word64 s.uptime)])]

end Snapshot

end Overseer
