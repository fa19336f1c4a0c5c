import Overseer.Path

/-! The variables that the program reads, and the directories they lead to. -/

namespace Overseer

structure Environment where
  home : Option String := none
  configHome : Option String := none
  dataHome : Option String := none
  logFilter : Option String := none
  /-- The home directory of the user's account, for when no variable names one. -/
  accountHome : Option String := none

namespace Environment

def joinPath (a b : String) : String := String.ofList (Path.join a.toList b.toList)

/-- An empty variable counts as missing. -/
def homeDir (e : Environment) : Option String :=
  (e.home.filter (· ≠ "")).orElse fun _ => e.accountHome

/-- A base directory: the one that a variable gives, if that is absolute, or one below the
home directory. -/
def baseDir (e : Environment) (given : Option String) (fallback : String) : Option String :=
  (given.filter fun p => Path.isAbsolute p.toList).orElse fun _ =>
    e.homeDir.map (joinPath · fallback)

def configDir (e : Environment) : Option String := e.baseDir e.configHome ".config"

def dataDir (e : Environment) : Option String := e.baseDir e.dataHome ".local/share"

/-- Where settings are looked for. -/
def settingsPath (e : Environment) : Option String :=
  e.configDir.map fun p => joinPath (joinPath p "instwatch") "config.toml"

/-- Where instance logs go unless settings say otherwise. -/
def defaultLogDir (e : Environment) : String :=
  match e.dataDir with
  | some p => joinPath (joinPath p "instwatch") "logs"
  | none => "logs"

end Environment

end Overseer
