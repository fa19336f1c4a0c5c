import Overseer.Toml.Scalar
import Overseer.Toml.Table

/-! Reading a TOML document into its table. A reader takes the text from where a thing
starts and gives back the thing with what follows it. A document with any fault
has no reading. -/

namespace Overseer.Toml

abbrev Reader (α : Type) := List Char → Option (α × List Char)

def isBareKey (c : Char) : Bool :=
  ('A' ≤ c && c ≤ 'Z') || ('a' ≤ c && c ≤ 'z') || ('0' ≤ c && c ≤ '9') || c == '_' || c == '-'

/-- One key: quoted text of one line, or a run of letters, digits, `_` and `-`. -/
def readKey : Reader String := fun s =>
  match s with
  | '"' :: _ | '\'' :: _ => lineText? s
  | _ =>
    let bare := s.takeWhile isBareKey
    if bare.isEmpty then none else some (String.ofList bare, s.dropWhile isBareKey)

/-- Keys joined by dots, with spaces around the dots and after the last; `fuel` bounds
their number. -/
def readKeysWithin : Nat → Reader (List String)
  | 0, _ => none
  | fuel + 1, s => do
    let (key, s) ← readKey s
    match skipSpace s with
    | '.' :: r =>
      let (keys, r) ← readKeysWithin fuel (skipSpace r)
      some (key :: keys, r)
    | r => some ([key], r)

/-- Each key takes a character at least, so there are no more keys than characters. -/
def readKeys : Reader (List String) := fun s => readKeysWithin s.length s

/-- The keys on the way to the last one, and the last one. -/
def splitLast (keys : List String) : Option (List String × String) :=
  keys.getLast?.map fun k => (keys.dropLast, k)

/-- Skips a comment, if one is there, up to the end of its line. -/
def skipComment? : List Char → Option (List Char)
  | '#' :: r =>
    let body := r.takeWhile (fun c => !isControl c)
    let rest := r.drop body.length
    if rest.isEmpty ∨ (afterNewline? rest).isSome then some rest else none
  | s => some s

theorem length_skipComment? {r rest : List Char} (h : skipComment? ('#' :: r) = some rest) :
    rest.length ≤ r.length := by
  unfold skipComment? at h
  split at h
  · next r' heq =>
    cases heq
    dsimp only at h
    split at h
    · cases h
      exact (List.drop_sublist _ _).length_le
    · cases h
  · next hne => exact absurd rfl (hne r)

/-- Skips spaces, line ends and comments between the items of a bracket. -/
def skipBetween (s : List Char) : Option (List Char) :=
  match hs : skipGap s with
  | '#' :: r =>
    match hr : skipComment? ('#' :: r) with
    | none => none
    | some rest =>
      have : rest.length < s.length := by
        have h := length_skipGap s
        rw [hs, List.length_cons] at h
        exact Nat.lt_of_lt_of_le (Nat.lt_succ_of_le (length_skipComment? hr)) h
      skipBetween rest
  | r => some r
termination_by s.length

/-- Items between commas up to a closing bracket, which may follow a comma; `fuel` bounds
their number. -/
def readItemsWithin {α : Type} (close : Char) (item : Reader α) : Nat → Reader (List α)
  | 0, _ => none
  | fuel + 1, s => do
    let s ← skipBetween s
    if s.head? = some close then some ([], s.drop 1)
    else
      let (a, s) ← item s
      let s ← skipBetween s
      match s with
      | ',' :: r =>
        let (items, r) ← readItemsWithin close item fuel r
        some (a :: items, r)
      | c :: r => if c = close then some ([a], r) else none
      | [] => none

/-- Each item, or the bracket, takes a character at least. -/
def readItems {α : Type} (close : Char) (item : Reader α) : Reader (List α) := fun s =>
  readItemsWithin close item s.length s

/-- Dotted keys, an equals sign and a value. -/
def readPair (value : Reader Value) : Reader (List String × Value) := fun s => do
  let (keys, s) ← readKeys s
  let s ← expect '=' s
  let (v, s) ← value (skipSpace s)
  some ((keys, v), s)

/-- The table that braces enclose. -/
def inlineTable (pairs : List (List String × Value)) : Option Value := do
  let entries ← pairs.foldlM (fun es (keys, v) => do
    let (path, key) ← splitLast keys
    assign path key v .inline es) []
  some (.table .inline entries)

/-- A value without brackets. -/
def readLeaf : Reader Value := fun s =>
  match s with
  | '"' :: _ | '\'' :: _ => (text? s).map fun (t, rest) => (.string t, rest)
  | _ => readScalar? s

/-- A value with at most `depth` brackets and braces around anything in it. -/
def readValue : Nat → Reader Value
  | 0, s => readLeaf s
  | depth + 1, s =>
    match s with
    | '[' :: r =>
      (readItems ']' (readValue depth) r).map fun (items, rest) => (.array false items, rest)
    | '{' :: r => do
      let (pairs, rest) ← readItems '}' (readPair (readValue depth)) r
      some (← inlineTable pairs, rest)
    | _ => readLeaf s

/-- Brackets and braces may nest this deep. -/
def maxDepth : Nat := 80

/-- A line of a document. -/
inductive Statement where
  | blank
  | header (keys : List String)
  | element (keys : List String)
  | pair (keys : List String) (v : Value)

/-- What a line holds, up to its end or a comment. -/
def readStatement : Reader Statement := fun s =>
  match s with
  | '[' :: '[' :: r => do
    let (keys, r) ← readKeys (skipSpace r)
    let r ← expect ']' r
    let r ← expect ']' r
    some (.element keys, r)
  | '[' :: r => do
    let (keys, r) ← readKeys (skipSpace r)
    let r ← expect ']' r
    some (.header keys, r)
  | [] | '#' :: _ | '\r' :: _ | '\n' :: _ => some (.blank, s)
  | _ => (readPair (readValue maxDepth) s).map fun ((keys, v), r) => (.pair keys v, r)

/-- The lines of a document in order; `fuel` bounds their number. -/
def readStatementsWithin : Nat → List Char → Option (List Statement)
  | 0, _ => none
  | fuel + 1, s => do
    let (statement, s) ← readStatement (skipSpace s)
    let s ← skipComment? (skipSpace s)
    match s with
    | [] => some [statement]
    | _ =>
      let s ← afterNewline? s
      let statements ← readStatementsWithin fuel s
      some (statement :: statements)

/-- Each line but the last takes a character at least. -/
def readStatements (s : List Char) : Option (List Statement) :=
  readStatementsWithin (s.length + 1) s

/-- The document so far, and the keys of the header that the next line stands under. -/
structure Progress where
  entries : Entries := []
  header : List String := []

def Progress.add (p : Progress) : Statement → Option Progress
  | .blank => some p
  | .header keys => do
    let (path, key) ← splitLast keys
    some ⟨← openTable path key p.entries, keys⟩
  | .element keys => do
    let (path, key) ← splitLast keys
    some ⟨← openElement path key p.entries, keys⟩
  | .pair keys v => do
    let (path, key) ← splitLast keys
    some { p with entries := ← assignBelow p.header path key v p.entries }

/-- A byte order mark before the text is no part of it. -/
def withoutMark (s : List Char) : List Char :=
  if s.head? = some (Char.ofNat 0xFEFF) then s.drop 1 else s

/-- The table that a document describes. -/
def document? (text : String) : Option Entries := do
  let statements ← readStatements (withoutMark text.toList)
  let progress ← statements.foldlM Progress.add {}
  some progress.entries

end Overseer.Toml
