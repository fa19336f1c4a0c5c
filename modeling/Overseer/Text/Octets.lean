/-! Text with one character for each byte, so that bytes can be taken apart like text. -/

namespace Overseer.Text

/-- Characters below 256, each for one byte. -/
abbrev Octets := List Char

def octet (b : UInt8) : Char := Char.ofNat b.toNat

def octetByte (c : Char) : UInt8 := UInt8.ofNat c.toNat

def octets (bytes : ByteArray) : Octets := bytes.data.toList.map octet

def octetBytes (o : Octets) : ByteArray := ⟨(o.map octetByte).toArray⟩

def ofText (s : String) : Octets := octets s.toUTF8

/-- The text that the bytes encode, or where they encode none, a character for each. -/
def toText (o : Octets) : String := (String.fromUTF8? (octetBytes o)).getD (String.ofList o)

end Overseer.Text
