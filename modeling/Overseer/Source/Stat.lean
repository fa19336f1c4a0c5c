import Overseer.Process.Snapshot
import Overseer.Text.Blank
import Overseer.Text.Digits

/-! The status line of a process: its id, its name in parentheses, then fields between
blanks. The name may itself hold blanks and parentheses, so it reaches from the first
opening parenthesis to the last closing one. -/

namespace Overseer

structure StatLine where
  name : List Char
  state : Char
  parent : UInt32
  userTicks : UInt64
  systemTicks : UInt64
  threads : UInt32
  startTicks : UInt64
  virtualBytes : UInt64
  residentPages : UInt64
  deriving DecidableEq, Repr

namespace StatLine

/-- As many fields as must follow the name. -/
def fieldCount : Nat := 22

/-- The name, and what stands after it. -/
def splitName? (s : List Char) : Option (List Char × List Char) :=
  match s.findIdx? (· == '('), s.reverse.findIdx? (· == ')') with
  | some first, some fromEnd =>
    let last := s.length - 1 - fromEnd
    if first < last then some ((s.take last).drop (first + 1), s.drop (last + 1)) else none
  | _, _ => none

/-- Reads the fields after the name: state and parent come first, then user time at 11,
system time at 12, threads at 17, start at 19, size at 20 and pages at 21, which may be
negative and then counts as none. A field that is no number counts as 0. -/
def ofFields (name : List Char) (fields : List (List Char)) : StatLine :=
  let field (i : Nat) : List Char := fields.getD i []
  let counter (i : Nat) : UInt64 := (Text.unsigned64? (field i)).getD 0
  { name
    state := (field 0).headD '?'
    parent := (Text.unsigned32? (field 1)).getD 0
    userTicks := counter 11
    systemTicks := counter 12
    threads := (Text.unsigned32? (field 17)).getD 0
    startTicks := counter 19
    virtualBytes := counter 20
    residentPages := UInt64.ofNat ((Text.signed? (field 21)).getD 0).toNat }

/-- Reads a status line, if it has a name and fields enough. -/
def parse? (s : List Char) : Option StatLine :=
  match splitName? s with
  | none => none
  | some (name, rest) =>
    let fields := Text.words rest
    if fields.length < fieldCount then none else some (ofFields name fields)

/-- The state that a letter stands for. -/
def runState (letter : Char) : RunState :=
  match letter with
  | 'R' => .running
  | 'S' | 'D' | 'I' => .sleeping
  | 'Z' => .zombie
  | 'T' | 't' => .stopped
  | _ => .unknown

end StatLine

end Overseer
