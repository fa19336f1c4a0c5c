/-! Lines of a text: each ends at a newline, with or without a carriage return before it;
the last one may lack its end. -/

namespace Overseer.Text

/-- Drops one carriage return at the end. -/
def chopReturn (line : List Char) : List Char :=
  if line.getLast? = some '\r' then line.dropLast else line

/-- `line` is the line in progress, reversed. -/
def linesFrom (line : List Char) : List Char → List (List Char)
  | [] => if line.isEmpty then [] else [line.reverse]
  | c :: r =>
    if c = '\n' then chopReturn line.reverse :: linesFrom [] r else linesFrom (c :: line) r

def lines (s : List Char) : List (List Char) := linesFrom [] s

/-- What follows `start` in a text that starts so. -/
def after? (start : String) (s : List Char) : Option (List Char) :=
  if start.toList.isPrefixOf s then some (s.drop start.toList.length) else none

end Overseer.Text
