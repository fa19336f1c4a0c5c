import Overseer.Log.Writer

/-! A log read back: its bytes end records at newlines, and each record gives the stream and
the line that it was made from. -/

namespace Overseer.Log

/-- The pieces that newlines end, without them. What no newline ends is no piece. -/
def terminated : List UInt8 → List (List UInt8)
  | [] => []
  | b :: r =>
    if b = newline then [] :: terminated r
    else match terminated r with
      | [] => []
      | piece :: more => (b :: piece) :: more

/-- The time of a year from 0 to 9999 takes 24 bytes, the bar with its blanks three. -/
def leadLength : Nat := 27

/-- What stands before a line of the error stream. -/
def markerBytes : List UInt8 := (stderrMarker ++ " ").toUTF8.data.toList

/-- The stream and the line that a record tells of. -/
def readRecord (piece : List UInt8) : Stream × List UInt8 :=
  let rest := piece.drop leadLength
  if markerBytes.isPrefixOf rest then (.stderr, rest.drop markerBytes.length) else (.stdout, rest)

/-- The streams and lines of a log, in order. -/
def readLog (bytes : List UInt8) : List (Stream × List UInt8) := (terminated bytes).map readRecord

theorem terminated_record {line : List UInt8} (h : newline ∉ line) (rest : List UInt8) :
    terminated (line ++ newline :: rest) = line :: terminated rest := by
  induction line with
  | nil => simp [terminated]
  | cons b r ih =>
    simp only [List.mem_cons, not_or] at h
    have hb : b ≠ newline := fun hb => h.1 hb.symm
    simp [terminated, hb, ih h.2]

end Overseer.Log
