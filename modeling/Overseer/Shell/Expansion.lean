import Overseer.Programs.Session
import Overseer.Shell.Arithmetic
import Overseer.Shell.Pathname

/-! What becomes of the words of a command: values for parameters, output for commands,
numbers for expressions, and then the fields that unquoted blanks leave. -/

namespace Overseer.Shell

open Text (Octets)
open Programs (Run Process)
open Programs.Run

/-- What a word becomes before it is split. `gap` stands between fields that are apart in any
case, `mark` is nothing that makes a field all the same. -/
inductive Glyph where
  | char (c : Char) (quoted splits : Bool)
  | gap
  | mark

/-- What expansion needs of the evaluation of commands: to run one, with whether it is the
last thing that its process does, and to expand a word. -/
structure Evaluator where
  run : Bool → Command → Run Unit
  expand : Word → Run (List Glyph)

/-- Values that come from expansion may be split where they are not quoted. -/
def glyphsOf (inQuotes : Bool) (s : Octets) : List Glyph :=
  s.map fun c => .char c inQuotes (!inQuotes)

def marked (glyphs : List Glyph) : List Marked :=
  glyphs.filterMap fun g => match g with
    | .char c quoted _ => some (c, quoted)
    | .gap => some (' ', true)
    | .mark => none

def plainText (glyphs : List Glyph) : Octets := (marked glyphs).map (·.1)

/-- Blanks between fields, unless a variable names others. -/
def separators (p : Process) : Octets :=
  (p.bindings.lookup "IFS".toList).getD [' ', '\t', '\n']

/-- Fields found so far, last first, and the one in progress, reversed. -/
structure Splitting where
  fields : List (List Marked) := []
  current : Option (List Marked) := none

namespace Splitting

def close (s : Splitting) : Splitting :=
  match s.current with
  | some f => ⟨f.reverse :: s.fields, none⟩
  | none => s

def add (separators : Octets) (s : Splitting) : Glyph → Splitting
  | .gap => s.close
  | .mark => { s with current := some (s.current.getD []) }
  | .char c quoted splits =>
    if splits ∧ separators.contains c then
      if [' ', '\t', '\n'].contains c then s.close
      else { s with current := some (s.current.getD []) }.close
    else { s with current := some ((c, quoted) :: s.current.getD []) }

end Splitting

def split (separators : Octets) (glyphs : List Glyph) : List (List Marked) :=
  (glyphs.foldl (Splitting.add separators) {}).close.fields.reverse

def octetsOfNat (n : Nat) : Octets := (toString n).toList

/-- The arguments as fields of their own. -/
def argumentGlyphs (inQuotes : Bool) (arguments : List Octets) : List Glyph :=
  (arguments.map fun a => (if inQuotes then [Glyph.mark] else []) ++ glyphsOf inQuotes a)
    |>.intersperse [.gap] |>.flatten

/-- The value of a parameter that is one text. -/
def parameter? (p : Process) (name : Octets) : Option Octets :=
  match name with
  | ['?'] => some (octetsOfNat p.status)
  | ['#'] => some (octetsOfNat p.arguments.length)
  | ['$'] => some (octetsOfNat p.shellPid)
  | ['!'] => p.jobs.getLast?.map fun j => octetsOfNat j.pid
  | ['-'] => some (if p.exitOnError then ['e'] else [])
  | ['0'] => some p.name
  | ['*'] | ['@'] =>
    if p.arguments.isEmpty then none
    else some (([' '] : Octets).intercalate p.arguments)
  | _ =>
    match Text.natural? name with
    | some n => p.arguments[n - 1]?
    | none => p.bindings.lookup name

def setVariable (name value : Octets) : Run Unit :=
  modifyProcess fun p => { p with bindings := (name, value) :: p.bindings.filter (·.1 ≠ name) }

/-- Drops the ends of lines at the end. -/
def withoutLineEnds (s : Octets) : Octets := (s.reverse.dropWhile (· = '\n')).reverse

/-- A fault in a script ends the shell. -/
def abandon {α : Type} (message : String) : Run α := do
  complainShell message
  exit 2

/-- Runs a command in a process of its own and collects what it prints. -/
def outputOf (ev : Evaluator) (body : Command) : Run Octets := do
  let pipe ← newPipe
  let p ← process
  let job ← fork none p.time do
    modifyProcess fun p =>
      { p with descriptors := (1, .pipe pipe) :: p.descriptors.filter (·.1 ≠ 1) }
    ev.run true body
  modifyProcess fun p => 
    { p with time := max p.time job.finish, outputStatus := job.status.number }
  let f ← drain pipe
  modifyProcess fun p => { p with time := max p.time f.endsAt }
  return withoutLineEnds (f.bytes.filter (· ≠ Char.ofNat 0))

def arithmeticValue (e : Octets) : Run Int := do
  let p ← process
  let given (name : Octets) : Option Int :=
    match p.bindings.lookup name with
    | none => some 0
    | some v =>
      match v.dropWhile (· = ' ') with
      | [] => some 0
      | '-' :: r => (numeral? r).map (- ·)
      | r => numeral? r
  match Expression.parse? e with
  | none => abandon ("arithmetic expression: expecting primary: \"" ++ Text.toText e ++ "\"")
  | some parsed =>
    match parsed.eval given [] with
    | none =>
      abandon ("arithmetic expression: division by zero: \"" ++ Text.toText e ++ "\"")
    | some (n, values) =>
      for (name, v) in values.reverse do setVariable name (toString v).toList
      return n

/-- Applies the use of a parameter that is one text. -/
def useValue (ev : Evaluator) (name : Octets) (inQuotes : Bool) (value : Option Octets) :
    Use Word → Run (List Glyph)
  | .value => do
    if value.isNone ∧ (← process).exitOnUnset ∧ !(name = ['*'] ∨ name = ['@']) then
      abandon (Text.toText name ++ ": parameter not set")
    return glyphsOf inQuotes (value.getD [])
  | .length => return glyphsOf inQuotes (octetsOfNat (value.getD []).length)
  | .default orEmpty w =>
    if isGiven orEmpty then return glyphsOf inQuotes (value.getD []) else ev.expand w
  | .assign orEmpty w => do
    if isGiven orEmpty then return glyphsOf inQuotes (value.getD [])
    let v := plainText (← ev.expand w)
    setVariable name v
    return glyphsOf inQuotes v
  | .alternative orEmpty w => do if isGiven orEmpty then ev.expand w else return []
  | .require orEmpty w => do
    if isGiven orEmpty then return glyphsOf inQuotes (value.getD [])
    let message := plainText (← ev.expand w)
    abandon (Text.toText name ++ ": " ++
      (if message.isEmpty then "parameter not set" else Text.toText message))
  | .removeStart longest w => do
    return glyphsOf inQuotes (removeStart (marked (← ev.expand w)) longest (value.getD []))
  | .removeEnd longest w => do
    return glyphsOf inQuotes (removeEnd (marked (← ev.expand w)) longest (value.getD []))
where
  isGiven (orEmpty : Bool) : Bool := value.any fun v => !(orEmpty && v.isEmpty)

def expandPart (ev : Evaluator) : Part → Run (List Glyph)
  | .plain s => return s.map fun c => .char c false false
  | .quoted s => return .mark :: s.map fun c => .char c true false
  | .parameter name use inQuotes => do
    let p ← process
    match name, use with
    | ['@'], .value => return argumentGlyphs inQuotes p.arguments
    | ['*'], .value =>
      if inQuotes then return glyphsOf true (((separators p).take 1).intercalate p.arguments)
      else return argumentGlyphs false p.arguments
    | _, use => useValue ev name inQuotes (parameter? p name) use
  | .output body inQuotes => return glyphsOf inQuotes (← outputOf ev body)
  | .arithmetic e inQuotes => do
    let n ← arithmeticValue (plainText (← ev.expand e))
    return glyphsOf inQuotes (toString n).toList

def expandParts (ev : Evaluator) : Word → Run (List Glyph)
  | [] => return []
  | p :: r => return (← expandPart ev p) ++ (← expandParts ev r)

/-- A word as one text. -/
def expandText (ev : Evaluator) (w : Word) : Run Octets :=
  return plainText (← ev.expand w)

/-- Words as fields; patterns give way to the names of files that fit them. -/
def expandFields (ev : Evaluator) : List Word → Run (List Octets)
  | [] => return []
  | w :: r => do
    let glyphs ← ev.expand w
    let fields := split (separators (← process)) glyphs
    let tree := (← world).tree
    return fields.flatMap (pathnames tree) ++ (← expandFields ev r)

end Overseer.Shell
