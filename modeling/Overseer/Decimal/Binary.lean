/-! The value of a double, exactly: a natural number times a power of two. -/

namespace Overseer.Decimal

/-- What the 64 bits of a double denote. -/
inductive Binary where
  | nan
  | infinite (negative : Bool)
  /-- Denotes `mantissa * 2 ^ exponent`, below zero if `negative`. -/
  | finite (negative : Bool) (mantissa : Nat) (exponent : Int)
  deriving DecidableEq, Repr

/-- The bit above the 52 of a fraction. -/
def leadingBit : Nat := 0x10000000000000

/-- Reads sign, 11 bits of exponent and 52 bits of fraction. -/
def Binary.ofBits (bits : UInt64) : Binary :=
  let n := bits.toNat
  let negative := n / (2048 * leadingBit) == 1
  let power : Nat := n / leadingBit % 2048
  let fraction : Nat := n % leadingBit
  if power == 2047 then
    if fraction == 0 then .infinite negative else .nan
  else if power == 0 then .finite negative fraction (-1074)
  else .finite negative (leadingBit + fraction) ((power : Int) - 1075)

def Binary.ofFloat (x : Float) : Binary := .ofBits x.toBits

end Overseer.Decimal
