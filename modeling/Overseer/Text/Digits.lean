/-! Decimal numerals as they stand in the files and options this program reads:
an optional sign, then at least one ASCII digit, and a value within bounds. -/

namespace Overseer.Text

def isDigit (c : Char) : Bool := '0' ≤ c && c ≤ '9'

def digitValue (c : Char) : Nat := c.toNat - '0'.toNat

/-- The value of a hexadecimal digit in either case. -/
def hexDigit? (c : Char) : Option Nat :=
  if '0' ≤ c ∧ c ≤ '9' then some (c.toNat - '0'.toNat)
  else if 'a' ≤ c ∧ c ≤ 'f' then some (c.toNat - 'a'.toNat + 10)
  else if 'A' ≤ c ∧ c ≤ 'F' then some (c.toNat - 'A'.toNat + 10)
  else none

/-- The value of a run of digits, most significant first, read onto `acc`. -/
def digitsValue (acc : Nat) : List Char → Nat
  | [] => acc
  | c :: r => digitsValue (acc * 10 + digitValue c) r

/-- Reads a non-empty run of digits and nothing else. -/
def natural? (s : List Char) : Option Nat :=
  if !s.isEmpty && s.all isDigit then some (digitsValue 0 s) else none

/-- A numeral without sign or with a plus, whose value is below `bound`. -/
def unsigned? (bound : Nat) (s : List Char) : Option Nat :=
  let body := match s with
    | '+' :: r => r
    | r => r
  (natural? body).filter (· < bound)

/-- `2 ^ 63`. -/
def signBit : Nat := 0x8000000000000000

/-- A numeral with an optional sign and a value from `-2^63` to `2^63 - 1`. -/
def signed? (s : List Char) : Option Int :=
  match s with
  | '-' :: r => ((natural? r).filter (· ≤ signBit)).map fun n => -(n : Int)
  | '+' :: r => ((natural? r).filter (· < signBit)).map fun n => (n : Int)
  | r => ((natural? r).filter (· < signBit)).map fun n => (n : Int)

def unsigned32? (s : List Char) : Option UInt32 := (unsigned? UInt32.size s).map UInt32.ofNat

def unsigned64? (s : List Char) : Option UInt64 := (unsigned? UInt64.size s).map UInt64.ofNat

end Overseer.Text
