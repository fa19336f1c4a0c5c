import Overseer.Overflow
import Overseer.Process.Snapshot

/-! Where facts about processes come from. -/

namespace Overseer

/-- A process as read, before processor time is turned into a rate. -/
structure Observation where
  info : Snapshot
  /-- Processor time since the start of the process. -/
  cpuMillis : Option UInt64 := none

def Observation.missing (pid : Pid) : Observation := { info := .missing pid }

/-- A state of the system: what reading a process gives, and its direct children. -/
structure Source where
  read : Pid → Except Overflow Observation
  children : Pid → List Pid

end Overseer
