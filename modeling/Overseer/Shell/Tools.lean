import Overseer.Programs.Filters
import Overseer.Programs.Print
import Overseer.Programs.Session
import Overseer.Shell.Expansion
import Overseer.Shell.Test

/-! The programs that a shell finds: each reads, writes and takes its time, and gives a
status. -/

namespace Overseer.Shell

open Text (Octets)
open Programs (Run Flow Transliteration)
open Programs.Run

/-- Microseconds that an argument of `sleep` stands for. -/
def duration? (s : Octets) : Option Nat := do
  let digits := s.takeWhile fun c => Text.isDigit c ∨ c = '.'
  let unit ← [("", 1), ("s", 1), ("m", 60), ("h", 3600), ("d", 86400)].lookup
    (String.ofList (s.drop digits.length))
  let whole := digits.takeWhile (· ≠ '.')
  let fraction := (digits.drop (whole.length + 1)).take 6
  if (whole ++ fraction).isEmpty ∨ !(whole ++ fraction).all Text.isDigit then none
  else
    let micros := Text.digitsValue 0 fraction * Nat.pow 10 (6 - fraction.length)
    some (unit * (Text.digitsValue 0 whole * 1000000 + micros))

def fileFault : FileError → String
  | .notFound => "No such file or directory"
  | .isDirectory => "Is a directory"
  | .notDirectory => "Not a directory"
  | .nameTooLong => "File name too long"
  | .alreadyExists => "File exists"
  | .directoryNotEmpty => "Directory not empty"
  | .tooManyLinks => "Too many levels of symbolic links"
  | .invalidInput => "Invalid argument"

/-- What can be read from a path. -/
def openFlow (path : Octets) : Run (Except FileError Flow) := do
  match String.ofList path with
  | "-" | "/dev/stdin" => return .ok (← input 0)
  | "/dev/null" => return .ok .empty
  | "/dev/zero" => return .ok { Flow.empty with endless := some (Char.ofNat 0) }
  | _ =>
    return ((← world).tree.readFile (Text.toText path)).map fun b => Flow.ofBytes (Text.octets b)

/-- Does something with each file in turn; one that cannot be read is reported. What is left
of the standard input stays there. -/
def eachFile (name : Octets) (fault : String → FileError → String)
    (use : Octets → Flow → Run Flow) : List Octets → Run Nat
  | [] => return 0
  | path :: r => do
    let status ← match ← openFlow path with
      | .ok f => do
        let rest ← use path (f.notBefore (← process).time)
        if path = ['-'] then setInput 0 rest
        pure 0
      | .error e =>
        complain name (fault (Text.toText path) e)
        pure 1
    return max status (← eachFile name fault use r)

def orStdin (files : List Octets) : List Octets := if files.isEmpty then [['-']] else files

/-- Reports a wrong use of a program. -/
def misuse (name : String) (messages : List String) : Run Nat := do
  for message in messages do complain name.toList message
  emit 2 (Text.ofText ("Try '" ++ name ++ " --help' for more information.\n"))
  return 1

/-- Prints, and reports arguments that are not the numbers they should be. -/
def printStatus (hex : Bool) (fault : Octets → Run Unit) (args : List Octets) : Run Nat := do
  let args := if args.head? = some ['-', '-'] then args.drop 1 else args
  let (out, faults) := Programs.printf hex args
  emit 1 out
  for a in faults do fault a
  return if faults.isEmpty then 0 else 1

/-- 0 for true, 1 for false, 2 for a condition that is none. -/
def testStatus (args : List Octets) : Run Nat := do
  match test (← world).tree args with
  | .ok b => return if b then 0 else 1
  | .error e =>
    complainShell ("test: " ++ e)
    return 2

def runPrintf (args : List Octets) : Run Nat := do
  if args.isEmpty then misuse "printf" ["missing operand"]
  else
    printStatus true (fun a =>
      complain "printf".toList ("'" ++ Text.toText a ++ "': expected a numeric value")) args

def runCat (args : List Octets) : Run Nat :=
  eachFile "cat".toList (fun path e => path ++ ": " ++ fileFault e)
    (fun _ f => do
      pass f
      return { f with chunks := [] })
    (orStdin (args.filter (· ≠ ['-', 'u'])))

/-- The line over the beginning of a file. -/
def headTitle (first : Bool) (path : Octets) : Octets :=
  (if first then [] else ['\n']) ++ "==> ".toList ++
    (if path = ['-'] then "standard input".toList else path) ++ " <==\n".toList

def runHead (args : List Octets) : Run Nat :=
  match Programs.HeadRequest.read {} args with
  | .error message =>
    if message.startsWith "invalid number" then do
      complain "head".toList message
      return 1
    else misuse "head" [message]
  | .ok q => do
    let files := orStdin q.files
    let titles := q.titles.getD (1 < files.length)
    let one (first : Bool) : List Octets → Run Nat := eachFile "head".toList
      (fun path e =>
        if e = .isDirectory then "error reading '" ++ path ++ "': " ++ fileFault e
        else "cannot open '" ++ path ++ "' for reading: " ++ fileFault e)
      (fun path f => do
        if titles then emit 1 (headTitle first path)
        let taken := Programs.head q.extent f
        pass taken
        return f.drop taken.bytes.length)
    let status ← one true (files.take 1)
    return max status (← one false (files.drop 1))

def runTr (args : List Octets) : Run Nat :=
  match Transliteration.parse? { first := [] } args with
  | none =>
    match args.filter (·.head? ≠ some '-') with
    | [] => misuse "tr" ["missing operand"]
    | a :: _ => do
      complain "tr".toList ("missing operand after '" ++ Text.toText a ++ "'")
      emit 2 (Text.ofText "Two strings must be given when translating.\n")
      misuse "tr" []
  | some t => do
    pass (t.run (← input 0))
    return 0

def runSleep (args : List Octets) : Run Nat := do
  match args.filter fun a => (duration? a).isNone with
  | [] =>
    if args.isEmpty then misuse "sleep" ["missing operand"]
    else
      let time := (args.filterMap duration?).foldl (· + ·) 0
      modifyProcess fun p => { p with time := p.time + time }
      return 0
  | faults =>
    misuse "sleep" (faults.map fun a => "invalid time interval '" ++ Text.toText a ++ "'")

/-- The programs besides the shell. Each gives its status. -/
def program? (name : String) : Option (List Octets → Run Nat) :=
  match name with
  | "true" => some fun _ => return 0
  | "false" => some fun _ => return 1
  | "echo" => some fun args => do
    emit 1 (Programs.programEcho .plain true args)
    return 0
  | "printf" => some runPrintf
  | "cat" => some runCat
  | "head" => some runHead
  | "tr" => some runTr
  | "sleep" => some runSleep
  | "test" => some testStatus
  | _ => none

end Overseer.Shell
