import Overseer.Programs.Escape
import Overseer.Programs.Flow
import Overseer.Text.Digits

/-! Programs that pass on what they read: all of it, its beginning, or other characters in
place of some. -/

namespace Overseer.Programs

open Text (Octets)

/-- Splits a number from the letters after it. -/
def splitNumber (s : Octets) : Option Nat × Octets :=
  (Text.natural? (s.takeWhile Text.isDigit), s.dropWhile Text.isDigit)

/-- What the letters after a count multiply it by. -/
def multipliers : List (String × Nat) :=
  [("", 1), ("b", 512), ("kB", 1000), ("K", 1024), ("k", 1024), ("KiB", 1024),
    ("MB", 1000000), ("M", 1048576), ("MiB", 1048576), ("GB", 1000000000), ("G", 1073741824)]

def count? (s : Octets) : Option Nat := do
  let (n, unit) := splitNumber s
  return (← n) * (← multipliers.lookup (String.ofList unit))

/-- How much `head` passes on: so much from the start, or all but so much at the end. -/
structure Extent where
  lines : Bool
  fromEnd : Bool
  count : Nat

def Extent.parse? (lines : Bool) (s : Octets) : Option Extent :=
  match s with
  | '-' :: r => (count? r).map fun n => ⟨lines, true, n⟩
  | '+' :: r => (count? r).map fun n => ⟨lines, false, n⟩
  | r => (count? r).map fun n => ⟨lines, false, n⟩

/-- The number of bytes in the first lines. -/
def linesLength : Nat → Octets → Nat
  | 0, _ => 0
  | _, [] => 0
  | n + 1, c :: r => if c = '\n' then 1 + linesLength n r else 1 + linesLength (n + 1) r

/-- The number of lines, the last of which may lack its end. -/
def lineCount (s : Octets) : Nat :=
  s.count '\n' + (if s.getLast?.all (· = '\n') then 0 else 1)

/-- The number of bytes that `head` passes on. -/
def Extent.length (e : Extent) (f : Flow) : Nat :=
  match e.lines, e.fromEnd with
  | false, false => e.count
  | false, true => f.bytes.length - e.count
  | true, false => linesLength e.count f.bytes
  | true, true => linesLength (lineCount f.bytes - e.count) f.bytes

def head (e : Extent) (f : Flow) : Flow :=
  let n := e.length f
  let enough := !e.fromEnd && (if e.lines then e.count ≤ f.bytes.count '\n' else n ≤ f.bytes.length)
  let taken := f.take n
  if enough || (f.endless.isSome && !e.lines) then taken
  else { taken with endsAt := max taken.endsAt f.endsAt }

/-- What `head` is asked for: how much, of which files, and whether their names stand over
them. Without a wish, they do where there are several. -/
structure HeadRequest where
  extent : Extent := ⟨true, false, 10⟩
  titles : Option Bool := none
  files : List Octets := []

/-- Reads the options of `head`, and the files. -/
def HeadRequest.read (q : HeadRequest) : List Octets → Except String HeadRequest
  | [] => .ok q
  | word :: r =>
    match word with
    | ['-', '-'] => .ok { q with files := q.files ++ r }
    | ['-', 'q'] => read { q with titles := some false } r
    | ['-', 'v'] => read { q with titles := some true } r
    | '-' :: 'c' :: c :: n => (extent false (c :: n)).bind fun e => read { q with extent := e } r
    | '-' :: 'n' :: c :: n => (extent true (c :: n)).bind fun e => read { q with extent := e } r
    | ['-', 'c'] => separate false r
    | ['-', 'n'] => separate true r
    | '-' :: c :: n =>
      if Text.isDigit c then (extent true (c :: n)).bind fun e => read { q with extent := e } r
      else .error ("invalid option -- '" ++ String.ofList [c] ++ "'")
    | _ => read { q with files := q.files ++ [word] } r
where
  extent (lines : Bool) (n : Octets) : Except String Extent :=
    match Extent.parse? lines n with
    | some e => .ok e
    | none => .error ("invalid number of " ++ (if lines then "lines" else "bytes") ++ ": '" ++
        Text.toText n ++ "'")
  separate (lines : Bool) : List Octets → Except String HeadRequest
    | [] => .error ("option requires an argument -- '" ++ (if lines then "n" else "c") ++ "'")
    | n :: r => (extent lines n).bind fun e => read { q with extent := e } r

/-- The classes of characters that a set may name. -/
def classes : List (String × (Char → Bool)) :=
  [("upper", Char.isUpper), ("lower", Char.isLower), ("digit", Char.isDigit),
    ("alpha", Char.isAlpha), ("alnum", Char.isAlphanum),
    ("space", fun c => c == ' ' || ('\t' ≤ c && c ≤ '\r')),
    ("blank", fun c => c == ' ' || c == '\t'),
    ("punct", fun c => '!' ≤ c && c ≤ '~' && !c.isAlphanum),
    ("print", fun c => ' ' ≤ c && c ≤ '~'),
    ("graph", fun c => '!' ≤ c && c ≤ '~'),
    ("cntrl", fun c => c < ' ' || c == Char.ofNat 127),
    ("xdigit", fun c => c.isDigit || ('a' ≤ c && c ≤ 'f') || ('A' ≤ c && c ≤ 'F'))]

def allOctets : Octets := (List.range 256).map Char.ofNat

def charRange (a b : Char) : Octets :=
  (List.range (b.toNat + 1 - a.toNat)).map fun i => Char.ofNat (a.toNat + i)

/-- The first character of a set, escapes read. -/
def setChar : Octets → Option (Char × Octets)
  | [] => none
  | '\\' :: r => match Escape.ofFormat false r with
    | .char c rest => some (c, rest)
    | _ => match r with
      | c :: rest => some (c, rest)
      | [] => some ('\\', [])
  | c :: r => some (c, r)

/-- The name of a class that stands between `[:` and `:]`. -/
def classAt (s : Octets) : Option (Octets × Octets) :=
  match s with
  | '[' :: ':' :: r =>
    match r.dropWhile (· ≠ ':') with
    | ':' :: ']' :: rest =>
      (classes.lookup (String.ofList (r.takeWhile (· ≠ ':')))).map fun p =>
        (allOctets.filter p, rest)
    | _ => none
  | _ => none

/-- The characters of a set in order: single ones, ranges and classes. -/
def expandSetWithin : Nat → Octets → Octets
  | 0, _ => []
  | fuel + 1, s =>
    match classAt s with
    | some (members, rest) => members ++ expandSetWithin fuel rest
    | none =>
      match setChar s with
      | none => []
      | some (a, '-' :: r) =>
        match setChar r with
        | some (b, rest) => charRange a b ++ expandSetWithin fuel rest
        | none => [a, '-']
      | some (a, rest) => a :: expandSetWithin fuel rest

/-- Each member takes a character at least. -/
def expandSet (s : Octets) : Octets := expandSetWithin (s.length + 1) s

structure Transliteration where
  complement : Bool := false
  delete : Bool := false
  squeeze : Bool := false
  first : Octets
  second : Option Octets := none

namespace Transliteration

def flags? (t : Transliteration) : Octets → Option Transliteration
  | [] => some t
  | c :: r =>
    match c with
    | 'c' | 'C' => flags? { t with complement := true } r
    | 'd' => flags? { t with delete := true } r
    | 's' => flags? { t with squeeze := true } r
    | _ => none

/-- The options of `tr`, then one or two sets. -/
def parse? (t : Transliteration) : List Octets → Option Transliteration
  | [] => none
  | ['-', '-'] :: r => sets r
  | ('-' :: c :: flags) :: r => (t.flags? (c :: flags)).bind fun t => parse? t r
  | r => sets r
where
  sets : List Octets → Option Transliteration
    | [a] =>
      if t.delete || t.squeeze then some { t with first := expandSet a } else none
    | [a, b] => some { t with first := expandSet a, second := some (expandSet b) }
    | _ => none

def members (t : Transliteration) : Octets :=
  if t.complement then allOctets.filter (!t.first.contains ·) else t.first

/-- The character in place of another. The second set goes on with its last character. -/
def replace (source target : Octets) (c : Char) : Char :=
  match source.reverse.idxOf? c with
  | none => c
  | some i =>
    let place := source.length - 1 - i
    ((target[place]?).orElse fun _ => target.getLast?).getD c

/-- Drops all but the first of equal characters in a row. -/
def squeezeRuns (set : Octets) : Octets → Octets
  | [] => []
  | [c] => [c]
  | c :: d :: r =>
    if c = d ∧ set.contains c then squeezeRuns set (d :: r) else c :: squeezeRuns set (d :: r)

/-- What becomes of text that is read at once. -/
def apply (t : Transliteration) (s : Octets) : Octets :=
  let source := t.members
  let kept := if t.delete then s.filter (!source.contains ·)
    else match t.second with
      | some target => s.map (replace source target)
      | none => s
  if t.squeeze then squeezeRuns (t.second.getD source) kept else kept

def run (t : Transliteration) (f : Flow) : Flow :=
  { f with chunks := f.chunks.map fun c => { c with bytes := t.apply c.bytes }
           endless := (f.endless.map fun c => t.apply [c]).bind List.head? }

end Transliteration

end Overseer.Programs
