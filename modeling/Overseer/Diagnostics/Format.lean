/-! The layouts in which the program reports about itself. -/

namespace Overseer.Diagnostics

inductive Format where
  | pretty | compact | json
  deriving DecidableEq, Repr

namespace Format

/-- A layout by its name, in ASCII letters of either case. -/
def parse (s : String) : Option Format :=
  match s.toLower with
  | "pretty" => some pretty
  | "compact" => some compact
  | "json" => some json
  | _ => none

end Format

end Overseer.Diagnostics
