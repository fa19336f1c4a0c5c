import Overseer.Event
import Overseer.Text.Blank
import Overseer.Text.Digits

/-! Which reports are written: directives between commas, each with a level and, before it,
a part of the program, a span of its work, or fields. The most specific directive
that covers a report decides. -/

namespace Overseer.Diagnostics

/-- Directives by how much they let through; nothing passes at 0, everything at 5. -/
abbrev Threshold := Nat

def threshold : Level → Threshold
  | .error => 1
  | .warn => 2
  | .info => 3
  | .debug => 4
  | .trace => 5

structure Directive where
  level : Threshold
  target : Option String := none
  span : Option String := none
  fields : List String := []
  deriving DecidableEq

namespace Directive

def levelNames : List (String × Threshold) :=
  [("off", 0), ("error", 1), ("warn", 2), ("info", 3), ("debug", 4), ("trace", 5)]

/-- A level by its name, in letters of either case, or by its number. -/
def level? (s : List Char) : Option Threshold :=
  match Text.unsigned? UInt64.size s with
  | some n => if n ≤ 5 then some n else none
  | none => if s = [] then some 1 else levelNames.lookup (String.ofList s).toLower

/-- What comes before the first character of a kind, that character, and what follows it. -/
def breakAt (p : Char → Bool) (s : List Char) : List Char × Option (Char × List Char) :=
  (s.takeWhile (!p ·), match s.dropWhile (!p ·) with
    | [] => none
    | c :: r => some (c, r))

/-- A level after an equals sign; nothing there lets all through. -/
def levelAfter? (s : List Char) : Option Threshold := if s = [] then some 5 else level? s

/-- What follows a closing bracket: nothing, or a level. -/
def afterSpan? : List Char → Option Threshold
  | [] => some 5
  | '=' :: r => levelAfter? r
  | _ => none

/-- A word alone is a level, or else a target of which everything passes. -/
def word (s : List Char) : Directive :=
  match level? s with
  | some level => { level }
  | none => { level := 5, target := some (String.ofList s) }

/-- Names between commas, none of them empty. -/
def fieldsWithin? : Nat → List Char → Option (List String)
  | 0, _ => none
  | fuel + 1, s =>
    match breakAt (· = ',') s with
    | ([], _) => none
    | (name, none) => some [String.ofList name]
    | (name, some (_, r)) => (fieldsWithin? fuel r).map (String.ofList name :: ·)

/-- A span in brackets, with or without fields in braces, and what follows. -/
def bracketed? (target : Option String) (s : List Char) : Option Directive :=
  match breakAt (fun c => c = ']' ∨ c = Char.ofNat 0x7B) s with
  | (span, some (']', r)) =>
    (afterSpan? r).map fun level => { level, target, span := some (String.ofList span) }
  | (span, some (_, r)) => do
    let (inner, rest) := breakAt (· = Char.ofNat 0x7D) r
    let fields ← fieldsWithin? (inner.length + 1) inner
    match rest with
    | some (_, ']' :: r) =>
      let level ← afterSpan? r
      some { level, target, fields
             span := if span = [] then none else some (String.ofList span) }
    | _ => none
  | _ => none

/-- Characters that a target or a level may begin with. -/
def startsWord (c : Char) : Bool := ['-', ':', '_'].contains c || c.isAlphanum || 0x80 ≤ c.toNat

/-- Reads a directive. Blanks before it are allowed where it is one word, and are then part
of the word. -/
def parse? (s : List Char) : Option Directive :=
  match breakAt (fun c => c = '=' ∨ c = '[') s with
  | ([], some ('[', r)) => bracketed? none r
  | (all, none) => if (Text.trimLeft all).head?.any startsWord then some (word all) else none
  | (target, some (mark, r)) =>
    if !target.head?.any startsWord then none
    else if mark = '=' then
      (levelAfter? r).map fun level => { level, target := some (String.ofList target) }
    else bracketed? (some (String.ofList target)) r

/-- Directives on spans, or on the values of fields, judge spans alone. -/
def isStatic (d : Directive) : Bool :=
  d.span.isNone && d.fields.all fun f => !f.toList.contains '='

end Directive

/-- Where a report comes from, and the fields that it carries. -/
structure Origin where
  target : String
  fields : List String

/-- Directives in force, without those on spans. -/
structure Filter where
  directives : List Directive

namespace Filter

/-- Directives given with commas between them. -/
def pieces (s : List Char) : List (List Char) :=
  (s.splitBy fun a b => a ≠ ',' ∧ b ≠ ',').filter (· ≠ [','])

/-- Only errors pass where no directive is given. -/
def ofDirectives (ds : List Directive) : Filter :=
  if ds.isEmpty then ⟨[{ level := 1 }]⟩ else ⟨ds.filter (·.isStatic)⟩

/-- Directives that must all be readable. -/
def parse? (s : String) : Option Filter :=
  ((pieces s.toList).mapM Directive.parse?).map ofDirectives

/-- The readable ones among directives. -/
def parseLenient (s : String) : Filter :=
  ofDirectives ((pieces s.toList).filterMap Directive.parse?)

/-- The filter of a setting, if there is one and it can be read, or else the one for a level. -/
def choose (setting : Option String) (level : String) : Filter :=
  (setting.bind parse?).getD (parseLenient level)

def covers (o : Origin) (d : Directive) : Bool :=
  d.target.all (fun t => t.toList.isPrefixOf o.target.toList) &&
    d.fields.all o.fields.contains

/-- Whether the first directive is more specific: a longer target, or more fields. Of equal
ones the later counts. -/
def outranks (a b : Directive) : Bool :=
  let length (d : Directive) := d.target.elim 0 fun t => t.utf8ByteSize + 1
  length b < length a || (length a == length b && b.fields.length < a.fields.length)

/-- The directive that decides on reports from somewhere. -/
def deciding? (f : Filter) (o : Origin) : Option Directive :=
  (f.directives.filter (covers o)).foldl (fun best d =>
    match best with
    | none => some d
    | some b => if outranks b d then some b else some d) none

def passes (f : Filter) (o : Origin) (level : Level) : Bool :=
  (f.deciding? o).any fun d => threshold level ≤ d.level

end Filter

end Overseer.Diagnostics
