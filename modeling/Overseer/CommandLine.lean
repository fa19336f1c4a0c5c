import Overseer.CommandLine.Grammar
import Overseer.Settings

/-! The command line: `tree` and `family` poll a process, `run` starts a program. -/

namespace Overseer

namespace CommandLine

/-- What is polled, how often, and how the answer is written. -/
structure Poll where
  pid : Option UInt32
  samples : Nat
  intervalMs : Option Nat
  json : Bool

/-- What is started, and settings for this run alone. -/
structure Launch where
  name : Option String
  logDir : Option String
  maxBytes : Option Nat
  maxFiles : Option Nat
  intervalMs : Option Nat
  command : List String

inductive Task where
  | tree (poll : Poll)
  | family (poll : Poll) (noChildren : Bool)
  | run (launch : Launch)

structure Invocation where
  settingsPath : Option String
  level : Option String
  task : Task

def globalOptions : List (String × ValueKind) := [("config", .path), ("log-level", .text)]

def topGrammar : Grammar := ⟨globalOptions, [], .none, ["tree", "family", "run", "help"]⟩

def pollOptions : List (String × ValueKind) :=
  globalOptions ++ [("samples", .word64), ("interval-ms", .word64)]

def treeGrammar : Grammar := ⟨pollOptions, ["json"], .one .word32, []⟩

def familyGrammar : Grammar := ⟨pollOptions, ["json", "no-children"], .one .word32, []⟩

def runGrammar : Grammar :=
  ⟨globalOptions ++ [("name", .text), ("log-dir", .path), ("max-bytes", .word64),
    ("max-files", .word64), ("interval-ms", .word64)], [], .rest, []⟩

def natural (p : Progress) (name : String) : Option Nat :=
  (p.options.lookup name).bind natural64?

/-- Only the first of more polls than one seeds samples, so two are the fewest that give
rates. -/
def defaultSamples : Nat := 2

def Poll.of (p : Progress) : Poll :=
  { pid := p.operands.head?.bind pid?
    samples := (natural p "samples").getD defaultSamples
    intervalMs := natural p "interval-ms"
    json := p.flags.contains "json" }

def Launch.of (p : Progress) : Launch :=
  { name := p.options.lookup "name"
    logDir := p.options.lookup "log-dir"
    maxBytes := natural p "max-bytes"
    maxFiles := natural p "max-files"
    intervalMs := natural p "interval-ms"
    command := p.operands }

/-- Reads all words of a subcommand. -/
def readAll (g : Grammar) (words : List String) : Except Refusal Progress := do
  let (p, _) ← readWords g {} words
  p.settle

/-- The help command names at most one command to explain. -/
def readHelp : List String → Refusal
  | [] => .helpWanted
  | [word] => if topGrammar.subcommands.contains word then .helpWanted else .subcommandUnknown
  | _ => .subcommandUnknown

def readTask (subcommand : String) (words : List String) : Except Refusal (Progress × Task) :=
  match subcommand with
  | "tree" => do
    let p ← readAll treeGrammar words
    return (p, .tree (.of p))
  | "family" => do
    let p ← readAll familyGrammar words
    return (p, .family (.of p) (p.flags.contains "no-children"))
  | "run" => do
    let p ← readAll runGrammar words
    if p.operands.isEmpty then throw .argumentMissing
    return (p, .run (.of p))
  | _ => throw (readHelp words)

/-- Reads a command line. An option that stands before and after the subcommand counts as
after it; faults after the subcommand are met first. -/
def parse (words : List String) : Except Refusal Invocation := do
  match ← readWords topGrammar {} words with
  | (p, some (subcommand, rest)) =>
    let (q, task) ← readTask subcommand rest
    let p ← p.settle
    let option (name : String) := (q.options.lookup name).orElse fun _ => p.options.lookup name
    return ⟨option "config", option "log-level", task⟩
  | (p, none) =>
    let p ← p.settle
    throw (if p.options.isEmpty then .nothingGiven else .subcommandMissing)

end CommandLine

namespace CommandLine.Invocation

/-- The settings that a command line names or that are found, with its level in place of
theirs. -/
def settings (i : Invocation) (e : Environment) (t : FileTree) : Settings × List Event :=
  let (s, events) := match i.settingsPath with
    | some path => Settings.load e t path
    | none => Settings.find e t
  match i.level with
  | some level => ({ s with diagnostics := { s.diagnostics with level } }, events)
  | none => (s, events)

end CommandLine.Invocation

namespace Settings

/-- The interval between polls, which the command line may override. -/
def interval (s : Settings) (override : Option Nat) : Nat :=
  override.getD s.monitor.pollIntervalMs

/-- The layout of diagnostics; a name of none means the first. -/
def format (s : Settings) : Diagnostics.Format :=
  (Diagnostics.Format.parse s.diagnostics.format).getD .pretty

end Settings

end Overseer
