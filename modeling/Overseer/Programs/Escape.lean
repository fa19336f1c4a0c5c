import Overseer.Text.Digits
import Overseer.Text.Octets

/-! Backslash escapes in the arguments of programs. -/

namespace Overseer.Programs

open Text (Octets)

def isOctal (c : Char) : Bool := '0' ≤ c && c ≤ '7'

/-- Reads up to `count` octal digits; the value is taken modulo 256. -/
def octalChar (count : Nat) (s : Octets) : Char × Octets :=
  let digits := (s.take count).takeWhile isOctal
  let n := digits.foldl (fun n c => n * 8 + (c.toNat - '0'.toNat)) 0
  (Char.ofNat (n % 256), s.drop digits.length)

def plainEscapes : List (Char × Char) :=
  [('a', Char.ofNat 7), ('b', Char.ofNat 8), ('e', Char.ofNat 27), ('f', Char.ofNat 12),
    ('n', '\n'), ('r', '\r'), ('t', '\t'), ('v', Char.ofNat 11), ('\\', '\\')]

/-- What the text after a backslash stands for. -/
inductive Escape where
  | char (c : Char) (rest : Octets)
  /-- All output ends here. -/
  | stop
  | unknown

/-- Up to two hexadecimal digits after an `x`. -/
def hexEscape (s : Octets) : Escape :=
  let digits := (s.take 2).takeWhile fun c => (Text.hexDigit? c).isSome
  if digits.isEmpty then .unknown
  else .char (Char.ofNat ((digits.filterMap Text.hexDigit?).foldl (fun n d => n * 16 + d) 0))
    (s.drop digits.length)

def plainEscape (c : Char) (rest : Octets) : Escape :=
  match plainEscapes.lookup c with
  | some d => .char d rest
  | none => .unknown

/-- Escapes of text that is printed: an octal number starts with a zero. Not everywhere are
there hexadecimal numbers. -/
def Escape.ofText (hex : Bool) : Octets → Escape
  | 'c' :: _ => .stop
  | '0' :: r => let (c, rest) := octalChar 3 r; .char c rest
  | 'x' :: r => if hex then hexEscape r else .unknown
  | c :: r => plainEscape c r
  | [] => .unknown

/-- Escapes of a format or a set: an octal number may start with any digit. -/
def Escape.ofFormat (hex : Bool) : Octets → Escape
  | 'x' :: r => if hex then hexEscape r else .unknown
  | c :: r =>
    if isOctal c then let (d, rest) := octalChar 3 (c :: r); .char d rest else plainEscape c r
  | [] => .unknown

/-- Puts characters for escapes; the flag tells whether output goes on after them. -/
def unescapeWithin (escape : Octets → Escape) : Nat → Octets → Octets × Bool
  | 0, s => (s, true)
  | fuel + 1, s =>
    match s.dropWhile (· ≠ '\\') with
    | [] => (s, true)
    | _ :: r =>
      let before := s.takeWhile (· ≠ '\\')
      match escape r with
      | .stop => (before, false)
      | .char c rest =>
        let (out, go) := unescapeWithin escape fuel rest
        (before ++ c :: out, go)
      | .unknown =>
        let (out, go) := unescapeWithin escape fuel (r.drop 1)
        (before ++ '\\' :: r.take 1 ++ out, go)

/-- Each escape takes a character at least. -/
def unescape (escape : Octets → Escape) (s : Octets) : Octets × Bool :=
  unescapeWithin escape (s.length + 1) s

end Overseer.Programs
