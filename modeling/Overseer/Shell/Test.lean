import Overseer.FileTree
import Overseer.Shell.Arithmetic

/-! Conditions on texts, numbers and files, as the shell tests them. -/

namespace Overseer.Shell

open Text (Octets)

/-- A number with an optional sign, blanks around it. -/
def integer? (s : Octets) : Option Int :=
  let body := ((s.dropWhile (· = ' ')).reverse.dropWhile (· = ' ')).reverse
  match body with
  | '-' :: r => (Text.natural? r).map fun n => -(n : Int)
  | '+' :: r => (Text.natural? r).map fun n => (n : Int)
  | r => (Text.natural? r).map fun n => (n : Int)

def numberTests : List (String × (Int → Int → Bool)) :=
  [("-eq", fun a b => a = b), ("-ne", fun a b => a ≠ b), ("-lt", fun a b => a < b),
    ("-le", fun a b => a ≤ b), ("-gt", fun a b => b < a), ("-ge", fun a b => b ≤ a)]

/-- What is tested of one text. -/
def unaryTest (t : FileTree) (sign : String) (a : Octets) : Option Bool :=
  let path := Text.toText a
  match sign with
  | "-n" => some (!a.isEmpty)
  | "-z" => some a.isEmpty
  | "-e" => some (t.pathExists path)
  | "-d" => some (t.isDir path)
  | "-f" => some (t.pathExists path && !t.isDir path)
  | "-r" | "-w" => some (t.pathExists path)
  | "-x" => some (t.isDir path)
  | "-s" => some (match t.readFile path with
    | .ok bytes => bytes.size ≠ 0
    | .error _ => false)
  | "-t" => some false
  | _ => none

/-- What is tested of two texts. A missing answer means that a number was expected. -/
def binaryTest (sign : String) (a b : Octets) : Option (Except Octets Bool) :=
  match sign with
  | "=" => some (.ok (a = b))
  | "!=" => some (.ok (a ≠ b))
  | _ => (numberTests.lookup sign).map fun test =>
    match integer? a, integer? b with
    | some m, some n => .ok (test m n)
    | none, _ => .error a
    | _, none => .error b

/-- The truth of a condition, or what is wrong with it; `fuel` bounds its length. -/
def evalTest (t : FileTree) : Nat → List Octets → Except String Bool
  | 0, _ => .error "too deep"
  | fuel + 1, words =>
    match words.findIdx? (· = ['-', 'o']) with
    | some (i + 1) => do
      let a ← evalTest t fuel (words.take (i + 1))
      let b ← evalTest t fuel (words.drop (i + 2))
      return a || b
    | _ =>
      match words.findIdx? (· = ['-', 'a']) with
      | some (i + 1) => do
        let a ← evalTest t fuel (words.take (i + 1))
        let b ← evalTest t fuel (words.drop (i + 2))
        return a && b
      | _ =>
        match words with
        | [] => .ok false
        | [a] => .ok (!a.isEmpty)
        | [a, b] =>
          if a = ['!'] then .ok b.isEmpty
          else match unaryTest t (String.ofList a) b with
            | some r => .ok r
            | none => .error (Text.toText a ++ ": unexpected operator")
        | a :: b :: c :: r =>
          match r, binaryTest (String.ofList b) a c with
          | [], some (.ok v) => .ok v
          | [], some (.error n) => .error ("Illegal number: " ++ Text.toText n)
          | _, _ =>
            if a = ['!'] then (evalTest t fuel (b :: c :: r)).map (!·)
            else if a = ['('] ∧ (b :: c :: r).getLast? = some [')'] then
              evalTest t fuel (b :: c :: r).dropLast
            else .error (Text.toText b ++ ": unexpected operator")

/-- The status of a test: 0 for true, 1 for false, 2 for a condition that is none. -/
def test (t : FileTree) (words : List Octets) : Except String Bool :=
  evalTest t (words.length + 1) words

end Overseer.Shell
