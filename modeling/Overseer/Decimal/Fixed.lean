import Overseer.Decimal.Binary

/-! A double with a fixed number of decimal places, rounded from its exact value;
a half goes to the even neighbour. -/

namespace Overseer.Decimal

/-- `num / den` to the nearest whole number, a half to the even one. -/
def roundDivEven (num den : Nat) : Nat :=
  if 2 * (num % den) < den then num / den
  else if den < 2 * (num % den) then num / den + 1
  else num / den + num / den % 2

/-- `n / 10 ^ places` written with a point, if there are places to write. -/
def placed (n places : Nat) : String :=
  if places == 0 then toString n
  else
    let fraction := toString (n % Nat.pow 10 places)
    toString (n / Nat.pow 10 places) ++ "." ++
      "".pushn '0' (places - fraction.length) ++ fraction

/-- `mantissa * 2 ^ exponent` times `10 ^ places`, rounded to a whole number. -/
def scaled (mantissa : Nat) (exponent : Int) (places : Nat) : Nat :=
  roundDivEven (mantissa * Nat.pow 2 exponent.toNat * Nat.pow 10 places)
    (Nat.pow 2 (-exponent).toNat)

def fixedBinary (places : Nat) : Binary → String
  | .nan => "NaN"
  | .infinite negative => if negative then "-inf" else "inf"
  | .finite negative m e => (if negative then "-" else "") ++ placed (scaled m e places) places

/-- The text of `x` with `places` decimal places; a minus stays on a negative zero. -/
def fixed (places : Nat) (x : Float) : String := fixedBinary places (.ofFloat x)

end Overseer.Decimal
