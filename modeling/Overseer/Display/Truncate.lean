import Overseer.Display.Width

/-! Text cut to a number of columns, with an ellipsis where it was cut. -/

namespace Overseer.Display

def ellipsis : Char := Char.ofNat 0x2026

/-- Characters as long as they keep within `room`, counted one by one from `used`; the
first that does not gives way to an ellipsis. -/
def cutFrom (room used : Nat) : List Char → List Char
  | [] => []
  | c :: r =>
    let used' := used + (charWidth? c).getD 0
    if room < used' then [ellipsis] else c :: cutFrom room used' r

/-- The text itself if it fits; otherwise as much of it as leaves a column for the ellipsis. -/
def truncate (s : List Char) (columns : Nat) : List Char :=
  if textWidth s ≤ columns then s else cutFrom (columns - 1) 0 s

theorem truncate_of_fits {s : List Char} {columns : Nat} (h : textWidth s ≤ columns) :
    truncate s columns = s := by
  simp [truncate, h]

end Overseer.Display
