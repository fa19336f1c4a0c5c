import Overseer.Source
import Std.Data.TreeMap

/-! A table of processes held in memory. Children follow from the parent each process
names, unless a list is given. -/

namespace Overseer

structure Table where
  processes : Std.TreeMap Pid Observation compare := {}
  /-- Lists of children that take the place of parent links. -/
  listed : Std.TreeMap Pid (List Pid) compare := {}
  /-- Every process stands under its own id. -/
  keyed : ∀ (pid : Pid) (o : Observation), processes[pid]? = some o → o.info.pid = pid := by simp

namespace Table

/-- Puts an observation under its own id. -/
def insertObservation (t : Table) (o : Observation) : Table :=
  { t with
    processes := t.processes.insert o.info.pid o
    keyed := by
      intro pid o' h
      rw [Std.TreeMap.getElem?_insert] at h
      split at h
      · next heq =>
        obtain rfl := Option.some.inj h
        exact Std.LawfulEqCmp.eq_of_compare heq
      · exact t.keyed pid o' h }

/-- Puts a running process with one thread. -/
def insert (t : Table) (pid parent : Pid) (name : String) (cpuMillis : UInt64) : Table :=
  t.insertObservation
    { info := { pid, parent, name, state := .running, threads := 1 }, cpuMillis := some cpuMillis }

/-- Sets the processor time of a process that is there. -/
def setCpuTime (t : Table) (pid : Pid) (cpuMillis : UInt64) : Table :=
  match t.processes[pid]? with
  | some o => t.insertObservation { o with cpuMillis := some cpuMillis }
  | none => t

def setChildren (t : Table) (pid : Pid) (children : List Pid) : Table :=
  { t with listed := t.listed.insert pid children }

def erase (t : Table) (pid : Pid) : Table :=
  { processes := t.processes.erase pid
    listed := t.listed.erase pid
    keyed := by
      intro pid' o h
      rw [Std.TreeMap.getElem?_erase] at h
      split at h
      · cases h
      · exact t.keyed pid' o h }

def read (t : Table) (pid : Pid) : Observation := (t.processes[pid]?).getD (.missing pid)

/-- In ascending order where they follow from parent links. -/
def children (t : Table) (pid : Pid) : List Pid :=
  match t.listed[pid]? with
  | some cs => cs
  | none =>
    if t.processes.contains pid then
      (t.processes.toList.filter fun (_, o) => o.info.parent == pid && o.info.pid != pid).map
        fun (_, o) => o.info.pid
    else []

def source (t : Table) : Source where
  read pid := .ok (t.read pid)
  children := t.children

end Table

end Overseer
