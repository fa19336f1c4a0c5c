import Overseer.Overflow
import Overseer.Process.Tree

/-! Totals over processes. -/

namespace Overseer

structure Summary where
  processes : Nat := 0
  cpuPercent : Float := 0
  residentBytes : UInt64 := 0
  threads : UInt64 := 0

namespace Summary

/-- Counts one more process; refused if a sum leaves 64 bits. -/
def add (t : Summary) (s : Snapshot) : Except Overflow Summary := do
  let residentBytes ← addChecked t.residentBytes s.residentBytes
  let threads ← addChecked t.threads s.threads.toUInt64
  return { processes := t.processes + 1, cpuPercent := t.cpuPercent + s.cpuPercent,
           residentBytes, threads }

/-- Adds up from the first process to the last. -/
def ofList (infos : List Snapshot) : Except Overflow Summary := infos.foldlM add {}

def ofTree (t : ProcessTree) : Except Overflow Summary :=
  t.nodes.foldlM (fun acc n => acc.add n.info) {}

def toJson (t : Summary) : Json :=
  .obj [("totalProcesses", .int t.processes), ("totalCpuPercent", .float t.cpuPercent),
    ("totalMemoryRssBytes", .int t.residentBytes.toNat), ("totalThreads", .int t.threads.toNat)]

end Summary

end Overseer
