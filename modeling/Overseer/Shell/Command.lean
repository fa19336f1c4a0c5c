import Overseer.Text.Octets

/-! Commands of the shell. -/

namespace Overseer.Shell

open Text (Octets)

/-- What is done with the value of a parameter; with `orEmpty`, an empty value counts as
none. -/
inductive Use (Word : Type) where
  | value
  | length
  | default (orEmpty : Bool) (word : Word)
  | assign (orEmpty : Bool) (word : Word)
  | alternative (orEmpty : Bool) (word : Word)
  | require (orEmpty : Bool) (word : Word)
  | removeStart (longest : Bool) (pattern : Word)
  | removeEnd (longest : Bool) (pattern : Word)

/-- How a file is opened, that a descriptor leads where another one does, or that the word is
itself what is read. -/
inductive Opening where
  | read | write | append | same | text
  deriving DecidableEq

mutual
/-- A part of a word. -/
inductive Part where
  | plain (text : Octets)
  | quoted (text : Octets)
  | parameter (name : Octets) (use : Use (List Part)) (inQuotes : Bool)
  | output (body : Command) (inQuotes : Bool)
  | arithmetic (expression : List Part) (inQuotes : Bool)
inductive Command where
  | skip
  | simple (assignments : List (Octets × List Part)) (words : List (List Part))
  | redirected (body : Command) (targets : List (Nat × Opening × List Part))
  | pipeline (commands : List Command)
  | negated (body : Command)
  | both (first second : Command)
  | either (first second : Command)
  | sequence (commands : List Command)
  | background (body : Command)
  | subshell (body : Command)
  | conditional (test yes no : Command)
  /-- Runs the body again and again; `entered` says that it has been run. -/
  | loop (untilTrue : Bool) (test body : Command) (entered : Bool)
  | forEach (name : Octets) (words : Option (List (List Part))) (body : Command)
  | choose (word : List Part) (branches : List (List (List Part) × Command))
  | define (name : Octets) (body : Command)
end

instance : Inhabited Command := ⟨.skip⟩

abbrev Word := List Part

end Overseer.Shell
