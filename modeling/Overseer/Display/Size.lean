import Overseer.Decimal.Fixed

/-! Byte counts for people: whole bytes and kibibytes, mebibytes and gibibytes to a tenth. -/

namespace Overseer.Display

def kibibyte : UInt64 := 1024

def mebibyte : UInt64 := 1024 * 1024

def gibibyte : UInt64 := 1024 * 1024 * 1024

/-- The count in the largest unit that it reaches. -/
def size (bytes : UInt64) : String :=
  if gibibyte ≤ bytes then Decimal.fixed 1 (bytes.toFloat / gibibyte.toFloat) ++ " GB"
  else if mebibyte ≤ bytes then Decimal.fixed 1 (bytes.toFloat / mebibyte.toFloat) ++ " MB"
  else if kibibyte ≤ bytes then Decimal.fixed 0 (bytes.toFloat / kibibyte.toFloat) ++ " KB"
  else toString bytes.toNat ++ " B"

end Overseer.Display
