import Overseer.Display.Size
import Overseer.Display.Truncate
import Overseer.Process.Summary

/-! Processes and totals as text, a line for each process. -/

namespace Overseer.Display

/-- Command lines are cut to so many columns. -/
def commandColumns : Nat := 48

def commandPart (command : String) : String :=
  if command = "" then ""
  else "  " ++ String.ofList (truncate command.toList commandColumns)

/-- One process. -/
def line (s : Snapshot) : String :=
  toString s.pid.toNat ++ " " ++ s.name ++ " [" ++ s.state.text ++ "] cpu " ++
    Decimal.fixed 1 s.cpuPercent ++ "% rss " ++ size s.residentBytes ++ " threads " ++
    toString s.threads.toNat ++ commandPart s.command

/-- Two spaces for each level above. -/
def indent (depth : Nat) : String := "".pushn ' ' (2 * depth)

/-- A tree, each process indented by its depth. -/
def tree (t : ProcessTree) : String :=
  t.nodesWithDepth.foldl (fun out (n, depth) => out ++ indent depth ++ line n.info ++ "\n") ""

def family (infos : List Snapshot) : String :=
  infos.foldl (fun out s => out ++ line s ++ "\n") ""

def summary (t : Summary) : String :=
  toString t.processes ++ " processes, cpu " ++ Decimal.fixed 1 t.cpuPercent ++ "%, rss " ++
    size t.residentBytes ++ ", " ++ toString t.threads.toNat ++ " threads"

end Overseer.Display
