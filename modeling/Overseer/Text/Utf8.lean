/-! UTF-8: strict decoding, and decoding that puts U+FFFD in place of each
maximal ill-formed part. -/

namespace Overseer.Text

def replacement : Char := Char.ofNat 0xFFFD

/-- The text that the bytes encode, if they are well formed. -/
def decodeUtf8? (bytes : ByteArray) : Option String := String.fromUTF8? bytes

def isContinuation (b : UInt8) : Bool := 0x80 ≤ b && b ≤ 0xBF

/-- Whether `b` may stand second after the lead byte `lead`: this shuts out
overlong forms, surrogates and values above U+10FFFF. -/
def isSecond (lead b : UInt8) : Bool :=
  if lead == 0xE0 then 0xA0 ≤ b && b ≤ 0xBF
  else if lead == 0xED then 0x80 ≤ b && b ≤ 0x9F
  else if lead == 0xF0 then 0x90 ≤ b && b ≤ 0xBF
  else if lead == 0xF4 then 0x80 ≤ b && b ≤ 0x8F
  else isContinuation b

/-- The length of the sequence that a lead byte announces; 0 for a byte that leads none. -/
def sequenceLength (lead : UInt8) : Nat :=
  if lead < 0x80 then 1
  else if lead < 0xC2 then 0
  else if lead < 0xE0 then 2
  else if lead < 0xF0 then 3
  else if lead < 0xF5 then 4
  else 0

/-- How many of the bytes after the lead `a` go on with its sequence properly, up to the
length that it announces. -/
def properLength (a : UInt8) : List UInt8 → Nat
  | [] => 0
  | b :: r =>
    if isSecond a b then 1 + ((r.take (sequenceLength a - 2)).takeWhile isContinuation).length
    else 0

/-- The scalar value of a complete sequence. -/
def sequenceValue (a : UInt8) (tail : List UInt8) : Nat :=
  tail.foldl (fun n b => n * 64 + b.toNat % 64)
    (if a < 0x80 then a.toNat else a.toNat % Nat.pow 2 (7 - sequenceLength a))

/-- Decodes bytes; each ill-formed lead, with the part of a sequence that follows it
properly, becomes one U+FFFD. -/
def decodeLossy : List UInt8 → List Char
  | [] => []
  | a :: r =>
    let length := sequenceLength a
    if length ≤ 1 then
      (if length == 1 then Char.ofNat a.toNat else replacement) :: decodeLossy r
    else
      let proper := properLength a r
      (if proper + 1 == length then Char.ofNat (sequenceValue a (r.take proper))
        else replacement) :: decodeLossy (r.drop proper)
termination_by bytes => bytes.length
decreasing_by all_goals simp; try omega

/-- Text for any bytes: their decoding where well formed, U+FFFD elsewhere. -/
def lossyText (bytes : ByteArray) : String := String.ofList (decodeLossy bytes.data.toList)

end Overseer.Text
