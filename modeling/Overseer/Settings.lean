import Overseer.Diagnostics.Format
import Overseer.Environment
import Overseer.FileTree
import Overseer.Log.Writer
import Overseer.Text.Utf8
import Overseer.Toml.Document

/-! Settings, and reading them from a TOML document. What a document leaves out has its
default; a document with a fault gives no settings at all. -/

namespace Overseer

open Toml (Value Entries)

structure MonitorSettings where
  pollIntervalMs : Nat := 2000
  includeChildren : Bool := true

structure LogSettings where
  dir : String
  maxBytes : Nat := Log.defaultMaxBytes
  maxFiles : Nat := Log.defaultMaxFiles

structure DiagnosticSettings where
  level : String := "info"
  format : String := "pretty"

structure Settings where
  monitor : MonitorSettings
  logs : LogSettings
  diagnostics : DiagnosticSettings

/-- Log files may always grow to one mebibyte. -/
def minimumMaxBytes : Nat := 1024 * 1024

namespace LogSettings

def effectiveMaxBytes (s : LogSettings) : Nat := max s.maxBytes minimumMaxBytes

/-- The log of the instance with this name. -/
def instancePath (s : LogSettings) (name : String) : String :=
  String.ofList (Path.join s.dir.toList (name ++ ".log").toList)

end LogSettings

/-- The name of an instance: the stem of its program's file name. -/
def instanceName (program : String) : String :=
  match Path.fileStem? program.toList with
  | some (c :: r) => String.ofList (c :: r)
  | _ => "instance"

namespace Settings

def initial (e : Environment) : Settings := ⟨{}, { dir := e.defaultLogDir }, {}⟩

/-- A key of a section, with what a value for it changes. -/
structure Field (σ : Type) where
  key : String
  set : Value → σ → Option σ

/-- Reads a section: a table of fields, or an array with the fields' values in order. Other
keys are passed over if they hold values that can be read at all; a date is a section
without any field. -/
def readSection {σ : Type} (fields : List (Field σ)) (v : Value) (start : σ) : Option σ :=
  match v with
  | .table _ entries =>
    entries.foldlM (fun s (k, v) =>
      match fields.find? (·.key = k) with
      | some field => field.set v s
      | none => if v.representable then some s else none) start
  | .array _ items => (fields.zip items).foldlM (fun s (field, v) => field.set v s) start
  | .moment _ => some start
  | _ => none

/-- A whole number of 64 bits. -/
def readNatural : Value → Option Nat
  | .integer n => if 0 ≤ n ∧ n < UInt64.size then some n.toNat else none
  | _ => none

def readFlag : Value → Option Bool
  | .boolean b => some b
  | _ => none

def readText : Value → Option String
  | .string s => some s
  | _ => none

def monitorFields : List (Field MonitorSettings) :=
  [⟨"poll_interval_ms", fun v s => (readNatural v).map fun n => { s with pollIntervalMs := n }⟩,
    ⟨"include_children", fun v s => (readFlag v).map fun b => { s with includeChildren := b }⟩]

def logFields : List (Field LogSettings) :=
  [⟨"dir", fun v s => (readText v).map fun t => { s with dir := t }⟩,
    ⟨"max_bytes", fun v s => (readNatural v).map fun n => { s with maxBytes := n }⟩,
    ⟨"max_files", fun v s => (readNatural v).map fun n => { s with maxFiles := n }⟩]

def diagnosticFields : List (Field DiagnosticSettings) :=
  [⟨"level", fun v s => (readText v).map fun t => { s with level := t }⟩,
    ⟨"format", fun v s => (readText v).map fun t => { s with format := t }⟩]

def sections : List (Field Settings) :=
  [⟨"monitor", fun v s =>
      (readSection monitorFields v s.monitor).map fun m => { s with monitor := m }⟩,
    ⟨"logs", fun v s => (readSection logFields v s.logs).map fun l => { s with logs := l }⟩,
    ⟨"logging", fun v s =>
      (readSection diagnosticFields v s.diagnostics).map fun d => { s with diagnostics := d }⟩]

/-- The settings in a document. -/
def parse? (e : Environment) (text : String) : Option Settings := do
  let entries ← Toml.document? text
  readSection sections (.table .header entries) (initial e)

/-- The settings in a file, and what there is to report. A file that cannot be read as text
counts as missing. -/
def load (e : Environment) (t : FileTree) (path : String) : Settings × List Event :=
  match (t.readFile path).toOption.bind Text.decodeUtf8? with
  | none => (initial e, [])
  | some text =>
    match parse? e text with
    | some s => (s, [])
    | none => (initial e, [.settingsInvalid path])

/-- The settings in the file where they are looked for. -/
def find (e : Environment) (t : FileTree) : Settings × List Event :=
  match e.settingsPath with
  | some path => if t.pathExists path then load e t path else (initial e, [])
  | none => (initial e, [])

end Settings

end Overseer
