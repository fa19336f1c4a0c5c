import Overseer.Text.Digits

/-! Reading words against the options of a command: flags, options with a value, and
operands. Words are taken from left to right. An option waits for its value; the value is
judged once the next thing is known to begin, and the first fault met ends the reading. -/

namespace Overseer.CommandLine

/-- What is wrong with a command line, or what it asks for in place of work. -/
inductive Refusal where
  | helpWanted
  | nothingGiven
  | subcommandMissing
  | subcommandUnknown
  | argumentUnknown
  | argumentMissing
  | valueMissing
  | valueInvalid
  | valueUnwanted
  | repeated
  deriving DecidableEq, Repr

inductive ValueKind where
  | text
  | path
  | word32
  | word64
  deriving DecidableEq

/-- A process id: read as an integer, then bounded. -/
def pid? (s : String) : Option UInt32 :=
  (Text.signed? s.toList).bind fun n =>
    if 0 ≤ n ∧ n < UInt32.size then some (.ofNat n.toNat) else none

def natural64? (s : String) : Option Nat := Text.unsigned? UInt64.size s.toList

/-- Whether a value is of a kind. -/
def ValueKind.check (kind : ValueKind) (value : String) : Except Refusal Unit :=
  match kind with
  | text => .ok ()
  | path => if value = "" then .error .valueMissing else .ok ()
  | word32 => if (pid? value).isSome then .ok () else .error .valueInvalid
  | word64 => if (natural64? value).isSome then .ok () else .error .valueInvalid

/-- The operands that a command takes: none, at most one, or all words from the first on that
is no option of the command. -/
inductive Operands where
  | none
  | one (kind : ValueKind)
  | rest
  deriving DecidableEq

structure Grammar where
  options : List (String × ValueKind)
  flags : List String
  operands : Operands
  subcommands : List String

/-- What a value that is still to be judged belongs to. -/
inductive Owner where
  | option (name : String) (kind : ValueKind)
  | operand (kind : ValueKind)

structure Pending where
  owner : Owner
  value : Option String

/-- What has been read: settled options, flags and operands, the value still to be judged,
and whether only operands may follow. -/
structure Progress where
  options : List (String × String) := []
  flags : List String := []
  operands : List String := []
  pending : Option Pending := none
  trailing : Bool := false

namespace Progress

/-- Adds an option that may stand once. -/
def addOption (p : Progress) (name : String) (kind : ValueKind) (value : String) :
    Except Refusal Progress := do
  if (p.options.lookup name).isSome then throw .repeated
  kind.check value
  return { p with options := p.options ++ [(name, value)] }

/-- Judges the pending value. -/
def settle (p : Progress) : Except Refusal Progress :=
  match p.pending with
  | none => .ok p
  | some ⟨_, none⟩ => .error .valueMissing
  | some ⟨.option name kind, some value⟩ =>
    ({ p with pending := none }).addOption name kind value
  | some ⟨.operand kind, some value⟩ => do
    kind.check value
    return { p with pending := none, operands := p.operands ++ [value] }

/-- Whether an option waits for the next word. -/
def isWaiting (p : Progress) : Bool :=
  match p.pending with
  | some ⟨.option _ _, none⟩ => true
  | _ => false

def addFlag (p : Progress) (name : String) : Except Refusal Progress := do
  let p ← p.settle
  if name = "help" then throw .helpWanted
  if p.flags.contains name then throw .repeated
  return { p with flags := p.flags ++ [name] }

/-- The operand read last, if it is still to be judged, counts too. -/
def hasOperand (p : Progress) : Bool :=
  !p.operands.isEmpty || match p.pending with
    | some ⟨.operand _, _⟩ => true
    | _ => false

end Progress

/-- How a word looks, whatever the options are. -/
inductive Shape where
  | separator
  | long (name : String) (value : Option String)
  | short (letters : List Char)
  | plain

def Shape.of (word : String) : Shape :=
  match word.toList with
  | ['-', '-'] => separator
  | '-' :: '-' :: r =>
    long (String.ofList (r.takeWhile (· ≠ '=')))
      (match r.dropWhile (· ≠ '=') with
        | [] => none
        | _ :: v => some (String.ofList v))
  | '-' :: c :: r => short (c :: r)
  | _ => plain

/-- A word that is taken for an option, or `none` where it is to be taken as a value. -/
def readOption (g : Grammar) (p : Progress) (word : String) :
    Except Refusal (Option Progress) :=
  match Shape.of word with
  | .long name value =>
    match g.options.lookup name with
    | some kind =>
      match value with
      | some v => do
        let p ← p.settle
        return some (← p.addOption name kind v)
      | none => do
        let p ← p.settle
        return some { p with pending := some ⟨.option name kind, none⟩ }
    | none =>
      if name = "help" ∨ g.flags.contains name then
        if value.isSome then .error .valueUnwanted else (p.addFlag name).map some
      else if g.operands = .rest then .ok none
      else .error .argumentUnknown
  | .short letters =>
    if g.operands = .rest ∧ letters.any (· ≠ 'h') then .ok none
    else if letters.head? = some 'h' then (p.addFlag "help").map some
    else .error .argumentUnknown
  | _ => .ok none

/-- A word that no option takes. -/
def readOperand (g : Grammar) (p : Progress) (word : String) : Except Refusal Progress :=
  match g.operands with
  | .none =>
    if p.trailing ∧ g.subcommands.contains word then .error .argumentUnknown
    else .error .subcommandUnknown
  | .one kind =>
    if p.hasOperand then .error .argumentUnknown
    else do
      let p ← p.settle
      return { p with pending := some ⟨.operand kind, some word⟩ }
  | .rest => do
    let p ← p.settle
    return { p with operands := p.operands ++ [word], trailing := true }

/-- One word, outside of what follows a separator. -/
def readWord (g : Grammar) (p : Progress) (word : String) : Except Refusal Progress := do
  if p.trailing then readOperand g p word
  else if Shape.of word matches .separator then return { p with trailing := true }
  else match ← readOption g p word with
    | some p => return p
    | none =>
      match p.pending with
      | some ⟨.option name kind, none⟩ =>
        return { p with pending := some ⟨.option name kind, some word⟩ }
      | _ => readOperand g p word

/-- Reads words up to a subcommand or to the end; what is pending then stays so. -/
def readWords (g : Grammar) (p : Progress) :
    List String → Except Refusal (Progress × Option (String × List String))
  | [] => .ok (p, none)
  | word :: r =>
    if !p.trailing && !p.isWaiting && g.subcommands.contains word then .ok (p, some (word, r))
    else do readWords g (← readWord g p word) r

end Overseer.CommandLine
