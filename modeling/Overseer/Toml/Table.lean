import Overseer.Toml.Value

/-! Adding to tables: by the lines of a document and inside braces. Every table and every
key is defined once; the origin of a table says what else may enter it. -/

namespace Overseer.Toml

/-- Changes what a key stands for, or adds the key. -/
def alterKey (key : String) (f : Option Value → Option Value) : Entries → Option Entries
  | [] => (f none).map fun v => [(key, v)]
  | (k, v) :: r =>
    if k = key then (f (some v)).map fun v' => (k, v') :: r
    else (alterKey key f r).map ((k, v) :: ·)

/-- Changes the last of some values. -/
def alterLast (f : Value → Option Value) : List Value → Option (List Value)
  | [] => none
  | [v] => (f v).map ([·])
  | v :: w :: r => (alterLast f (w :: r)).map (v :: ·)

/-- How a path of keys was written: before an equals sign or in a header. -/
inductive PathKind where
  | keys
  | header
  deriving DecidableEq

/-- What a table that a path makes on its way counts as. -/
def PathKind.origin : PathKind → Origin
  | keys => .dotted
  | header => .implied

/-- Tables that a path may lead through. -/
def PathKind.admits : PathKind → Origin → Bool
  | keys, o => o == .dotted || o == .implied
  | header, o => o != .inline

/-- Applies a change to the table that a path leads to, making the tables that are missing
on the way. An array of tables stands for its last table. -/
def within (kind : PathKind) (f : Origin → Entries → Option Entries) :
    List String → Origin → Entries → Option Entries
  | [], origin, entries => f origin entries
  | key :: path, _, entries =>
    alterKey key (fun
      | none => (within kind f path kind.origin []).map (.table kind.origin)
      | some (.table o es) =>
        if kind.admits o then (within kind f path o es).map (.table o) else none
      | some (.array true items) =>
        (alterLast (fun
          | .table o es => (within kind f path o es).map (.table o)
          | _ => none) items).map (.array true)
      | some _ => none) entries

/-- Adds a key that is not there yet. -/
def addKey (key : String) (v : Value) (entries : Entries) : Option Entries :=
  alterKey key (fun
    | none => some v
    | some _ => none) entries

/-- Adds a value under dotted keys. The table that takes it must come from dotted keys
itself, unless there is one key only. -/
def assign (path : List String) (key : String) (v : Value) (origin : Origin)
    (entries : Entries) : Option Entries :=
  within .keys
    (fun o es => if path = [] ∨ o = .dotted then addKey key v es else none) path origin entries

/-- Defines the table of a header. One that deeper headers implied keeps its entries. -/
def openTable (path : List String) (key : String) (entries : Entries) : Option Entries :=
  within .header
    (fun _ => alterKey key (fun
      | none => some (.table .header [])
      | some (.table .implied es) => some (.table .header es)
      | some _ => none)) path .header entries

/-- Adds a table to the array of a double-bracket header. -/
def openElement (path : List String) (key : String) (entries : Entries) : Option Entries :=
  within .header
    (fun _ => alterKey key (fun
      | none => some (.array true [.table .header []])
      | some (.array true items) => some (.array true (items ++ [.table .header []]))
      | some _ => none)) path .header entries

/-- Adds a value under dotted keys in the table of the current header. -/
def assignBelow (header path : List String) (key : String) (v : Value) (entries : Entries) :
    Option Entries :=
  within .header (assign path key v) header .header entries

end Overseer.Toml
