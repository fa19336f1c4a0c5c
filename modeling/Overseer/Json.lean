import Overseer.Decimal.Shortest

/-! JSON values and their text, with the members of an object in the order given. -/

namespace Overseer

inductive Json where
  | null
  | bool (b : Bool)
  | int (n : Int)
  | float (x : Float)
  | str (s : String)
  | arr (items : List Json)
  | obj (members : List (String × Json))

namespace Json

def hexDigit (n : Nat) : Char := Char.ofNat (if n < 10 then 48 + n else 87 + n)

/-- One character of a string; quotes, backslashes and control characters are escaped. -/
def pushEscaped (out : String) (c : Char) : String :=
  if c = '"' then out ++ "\\\""
  else if c = '\\' then out ++ "\\\\"
  else if c = '\n' then out ++ "\\n"
  else if c = '\r' then out ++ "\\r"
  else if c = '\t' then out ++ "\\t"
  else if c.toNat = 8 then out ++ "\\b"
  else if c.toNat = 12 then out ++ "\\f"
  else if c.toNat < 32 then
    (out ++ "\\u00").push (hexDigit (c.toNat / 16)) |>.push (hexDigit (c.toNat % 16))
  else out.push c

def quoteOnto (out s : String) : String := (s.toList.foldl pushEscaped (out.push '"')).push '"'

/-- A double in its shortest digits; `null` where JSON has no number for it. -/
def floatText (x : Float) : String := (Decimal.shortestText? x).getD "null"

mutual
/-- Appends the text of a value, without blanks. -/
def write (out : String) : Json → String
  | .null => out ++ "null"
  | .bool b => out ++ (if b then "true" else "false")
  | .int n => out ++ toString n
  | .float x => out ++ floatText x
  | .str s => quoteOnto out s
  | .arr items => (writeItems (out.push '[') true items).push ']'
  | .obj members => (writeMembers (out.push '\x7b') true members).push '\x7d'
def writeItems (out : String) (first : Bool) : List Json → String
  | [] => out
  | v :: r => writeItems (write (if first then out else out.push ',') v) false r
def writeMembers (out : String) (first : Bool) : List (String × Json) → String
  | [] => out
  | (k, v) :: r =>
    writeMembers (write ((quoteOnto (if first then out else out.push ',') k).push ':') v) false r
end

mutual
/-- The same value with the members of every object in order of their names. -/
def sorted : Json → Json
  | .arr items => .arr (sortedItems items)
  | .obj members => .obj ((sortedMembers members).mergeSort fun a b => a.1 ≤ b.1)
  | v => v
def sortedItems : List Json → List Json
  | [] => []
  | v :: r => sorted v :: sortedItems r
def sortedMembers : List (String × Json) → List (String × Json)
  | [] => []
  | (k, v) :: r => (k, sorted v) :: sortedMembers r
end

/-- The text of a value on one line. -/
def compact (v : Json) : String := write "" v

def newLine (out : String) (depth : Nat) : String := (out.push '\n').pushn ' ' (2 * depth)

mutual
/-- Appends the text of a value, one item or member a line, two spaces a level. -/
def writePretty (depth : Nat) (out : String) : Json → String
  | .arr [] => out ++ "[]"
  | .arr items =>
    (newLine (writePrettyItems (depth + 1) (out.push '[') true items) depth).push ']'
  | .obj [] => out.push '\x7b' |>.push '\x7d'
  | .obj members =>
    (newLine (writePrettyMembers (depth + 1) (out.push '\x7b') true members) depth).push '\x7d'
  | .null => out ++ "null"
  | .bool b => out ++ (if b then "true" else "false")
  | .int n => out ++ toString n
  | .float x => out ++ floatText x
  | .str s => quoteOnto out s
def writePrettyItems (depth : Nat) (out : String) (first : Bool) : List Json → String
  | [] => out
  | v :: r =>
    writePrettyItems depth
      (writePretty depth (newLine (if first then out else out.push ',') depth) v) false r
def writePrettyMembers (depth : Nat) (out : String) (first : Bool) :
    List (String × Json) → String
  | [] => out
  | (k, v) :: r =>
    let out := newLine (if first then out else out.push ',') depth
    writePrettyMembers depth (writePretty depth (quoteOnto out k ++ ": ") v) false r
end

def pretty (v : Json) : String := writePretty 0 "" v

end Json

end Overseer
