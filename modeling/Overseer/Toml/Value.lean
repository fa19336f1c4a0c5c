/-! Values of a TOML document. A table remembers how it came to be, since that decides
which later lines may still add to it. -/

namespace Overseer.Toml

/-- How a table came to be: by a header or as the document itself, on the way to a deeper
header, by a dotted key, or between braces. -/
inductive Origin where
  | header
  | implied
  | dotted
  | inline
  deriving DecidableEq, Repr

/-- The number that a float's text denotes; `decimal` is `significand * 10 ^ exponent`,
with its sign apart. -/
inductive Real where
  | decimal (negative : Bool) (significand : Nat) (exponent : Int)
  | infinite (negative : Bool)
  | notANumber
  deriving DecidableEq, Repr

inductive Value where
  | integer (n : Int)
  | float (x : Real)
  | boolean (b : Bool)
  | string (s : String)
  /-- A date, a time of day, or both, as written. -/
  | moment (text : String)
  /-- `ofTables` marks the arrays that double-bracket headers build. -/
  | array (ofTables : Bool) (items : List Value)
  | table (origin : Origin) (entries : List (String × Value))

abbrev Entries := List (String × Value)

/-- Significands of doubles have 53 bits, so from half a step below `2 ^ 1024` on, a number
rounds to infinity. -/
def doubleOverflow : Nat := (Nat.pow 2 54 - 1) * Nat.pow 2 970

namespace Real

/-- Whether a number written in digits is too large for a double. Numbers of fewer than
300 or more than 400 digits before the point are told apart by that alone. -/
def overflows : Real → Bool
  | decimal _ significand exponent =>
    let digits : Int := (Nat.toDigits 10 significand).length + exponent
    if significand = 0 ∨ digits < 300 then false
    else if 400 < digits then true
    else if 0 ≤ exponent then decide (doubleOverflow ≤ significand * Nat.pow 10 exponent.toNat)
    else decide (doubleOverflow * Nat.pow 10 (-exponent).toNat ≤ significand)
  | _ => false

end Real

/-- Integers that some machine integer of up to 128 bits holds, signed or not. -/
def inMachineRange (n : Int) : Bool := n.natAbs ≤ Nat.pow 2 127 || (0 < n && n < Nat.pow 2 128)

mutual
/-- Whether every number in a value has a machine representation. -/
def Value.representable : Value → Bool
  | .integer n => inMachineRange n
  | .float x => !x.overflows
  | .array _ items => allRepresentable items
  | .table _ entries => entriesRepresentable entries
  | _ => true
def allRepresentable : List Value → Bool
  | [] => true
  | v :: r => v.representable && allRepresentable r
def entriesRepresentable : Entries → Bool
  | [] => true
  | (_, v) :: r => v.representable && entriesRepresentable r
end

end Overseer.Toml
