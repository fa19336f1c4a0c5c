import Overseer.Text.Digits
import Overseer.Toml.Value
import Overseer.Toml.Quoted

/-! Scalars that stand without quotes: booleans, integers, floats, and dates with times. -/

namespace Overseer.Toml

open Text (isDigit digitsValue hexDigit?)

/-- Characters that end an unquoted scalar. A dot is part of it. -/
def endsScalar (c : Char) : Bool := "=,[]{} \t#\r\n)".toList.contains c

/-- Digits without the underscores that may stand one by one between them. -/
def ungrouped? (digit : Char → Bool) : List Char → Option (List Char)
  | [] => none
  | [c] => if digit c then some [c] else none
  | c :: d :: r =>
    if !digit c then none
    else (ungrouped? digit (if d = '_' then r else d :: r)).map (c :: ·)
termination_by s => s.length
decreasing_by split <;> simp only [List.length_cons] <;> omega

def signed (negative : Bool) (n : Nat) : Int := if negative then -(n : Int) else n

/-- Splits off a sign. -/
def splitSign : List Char → Option Bool × List Char
  | '-' :: r => (some true, r)
  | '+' :: r => (some false, r)
  | s => (none, s)

/-- The number written in digits of a base, which a leading letter has announced. -/
def inBase? (base : Nat) (s : List Char) : Option Int := do
  let digits ← ungrouped? (fun c => (hexDigit? c).any (· < base)) s
  let value : Nat := (digits.filterMap hexDigit?).foldl (fun n d => n * base + d) 0
  some value

/-- A decimal whole part: no zero leads others. -/
def whole? (s : List Char) : Option (List Char) :=
  (ungrouped? isDigit s).filter fun digits => digits.length = 1 ∨ digits.head? ≠ some '0'

def integer? (s : List Char) : Option Int :=
  match s with
  | '0' :: 'x' :: r => inBase? 16 r
  | '0' :: 'o' :: r => inBase? 8 r
  | '0' :: 'b' :: r => inBase? 2 r
  | _ =>
    let (sign, body) := splitSign s
    (whole? body).map fun digits => signed (sign.getD false) (digitsValue 0 digits)

/-- The power of ten after `e`: a sign, then digits, of which zeros may lead. -/
def exponent? (s : List Char) : Option Int :=
  let (sign, body) := splitSign s
  (ungrouped? isDigit body).map fun digits => signed (sign.getD false) (digitsValue 0 digits)

/-- Splits at the first character of a kind, which neither part holds. -/
def splitAtFirst (p : Char → Bool) (s : List Char) : List Char × Option (List Char) :=
  (s.takeWhile (!p ·), match s.dropWhile (!p ·) with
    | [] => none
    | _ :: r => some r)

/-- A whole part, then a fraction, an exponent, or both. -/
def decimal? (negative : Bool) (s : List Char) : Option Real := do
  let (mantissa, power) := splitAtFirst (fun c => c = 'e' ∨ c = 'E') s
  let (wholePart, fraction) := splitAtFirst (· = '.') mantissa
  let wholeDigits ← whole? wholePart
  let fractionDigits ← match fraction with
    | none => some []
    | some f => ungrouped? isDigit f
  let exponent ← match power with
    | none => some 0
    | some e => exponent? e
  if fraction.isNone ∧ power.isNone then none
  else some (.decimal negative (digitsValue 0 (wholeDigits ++ fractionDigits))
    (exponent - fractionDigits.length))

def real? (s : List Char) : Option Real :=
  let (sign, body) := splitSign s
  if body = "inf".toList then some (.infinite (sign.getD false))
  else if body = "nan".toList then some .notANumber
  else decimal? (sign.getD false) body

/-- A number of exactly `count` digits and what follows it. -/
def fixedDigits? (count : Nat) (s : List Char) : Option (Nat × List Char) :=
  if (s.take count).length = count ∧ (s.take count).all isDigit then
    some (digitsValue 0 (s.take count), s.drop count)
  else none

/-- What follows a character that must stand first. -/
def expect (c : Char) : List Char → Option (List Char)
  | [] => none
  | d :: r => if d = c then some r else none

def isLeapYear (y : Nat) : Bool := y % 4 = 0 && (y % 100 ≠ 0 || y % 400 = 0)

def daysInMonth (y m : Nat) : Nat :=
  if m = 2 then (if isLeapYear y then 29 else 28)
  else if [4, 6, 9, 11].contains m then 30
  else 31

/-- Skips a date `YYYY-MM-DD` of the calendar. -/
def afterDate? (s : List Char) : Option (List Char) := do
  let (y, s) ← fixedDigits? 4 s
  let s ← expect '-' s
  let (m, s) ← fixedDigits? 2 s
  let s ← expect '-' s
  let (d, s) ← fixedDigits? 2 s
  if 1 ≤ m ∧ m ≤ 12 ∧ 1 ≤ d ∧ d ≤ daysInMonth y m then some s else none

/-- Skips the hour and the minute. -/
def afterMinute? (s : List Char) : Option (List Char) := do
  let (h, s) ← fixedDigits? 2 s
  let s ← expect ':' s
  let (m, s) ← fixedDigits? 2 s
  if h ≤ 23 ∧ m ≤ 59 then some s else none

/-- Skips a fraction of a second, if one is there. -/
def afterFraction? : List Char → Option (List Char)
  | '.' :: r => if (r.takeWhile isDigit).isEmpty then none else some (r.dropWhile isDigit)
  | s => some s

/-- Skips a time of day; seconds may be left out. A leap second counts as one. -/
def afterTime? (s : List Char) : Option (List Char) := do
  let s ← afterMinute? s
  match s with
  | ':' :: r =>
    let (second, r) ← fixedDigits? 2 r
    if second ≤ 60 then afterFraction? r else none
  | _ => some s

/-- Whether a text is an offset from universal time, or empty. -/
def isOffset (s : List Char) : Bool :=
  match s with
  | [] => true
  | ['Z'] | ['z'] => true
  | '+' :: r | '-' :: r => afterMinute? r == some []
  | _ => false

/-- A date and time with or without an offset, a date alone, or a time alone. -/
def isMoment (s : List Char) : Bool :=
  match afterDate? s with
  | some [] => true
  | some (separator :: r) =>
    ['T', 't', ' '].contains separator && (afterTime? r).any isOffset
  | none => afterTime? s == some []

/-- The value of an unquoted scalar. -/
def scalar? (s : List Char) : Option Value :=
  if s = "true".toList then some (.boolean true)
  else if s = "false".toList then some (.boolean false)
  else match integer? s with
    | some n => some (.integer n)
    | none => match real? s with
      | some x => some (.float x)
      | none => if isMoment s then some (.moment (String.ofList s)) else none

/-- Reads an unquoted scalar. After a date, one space and a digit go on with the time. -/
def readScalar? (s : List Char) : Option (Value × List Char) :=
  let first := s.takeWhile (!endsScalar ·)
  let rest := s.dropWhile (!endsScalar ·)
  let (whole, rest) := match rest with
    | ' ' :: d :: r =>
      if isDigit d ∧ afterDate? first = some [] then
        (first ++ ' ' :: (d :: r).takeWhile (!endsScalar ·), (d :: r).dropWhile (!endsScalar ·))
      else (first, rest)
    | _ => (first, rest)
  (scalar? whole).map fun v => (v, rest)

end Overseer.Toml
