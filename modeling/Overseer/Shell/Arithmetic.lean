import Overseer.Text.Digits
import Overseer.Text.Octets

/-! Integer expressions of the shell, over signed numbers of 64 bits that wrap around. -/

namespace Overseer.Shell

open Text (Octets)

inductive Token where
  | number (n : Int)
  | name (s : Octets)
  | sign (s : String)
  deriving DecidableEq

/-- Signs of an expression, the longer ones first. -/
def signs : List String :=
  ["<<=", ">>=", "<<", ">>", "<=", ">=", "==", "!=", "&&", "||", "+=", "-=", "*=", "/=", "%=",
    "&=", "^=", "|=", "+", "-", "*", "/", "%", "<", ">", "!", "~", "&", "^", "|", "(", ")", "?",
    ":", "="]

def isNameStart (c : Char) : Bool := c.isAlpha || c == '_'

def isNameChar (c : Char) : Bool := c.isAlphanum || c == '_'

/-- A number: a leading zero makes it octal, `0x` hexadecimal. -/
def numeral? (s : Octets) : Option Int :=
  let value (base : Nat) (digits : Octets) : Option Int :=
    if digits.isEmpty ∨ !digits.all (fun c => (Text.hexDigit? c).any (· < base)) then none
    else
      let n : Nat := (digits.filterMap Text.hexDigit?).foldl (fun n d => n * base + d) 0
      some n
  match s with
  | '0' :: 'x' :: r => value 16 r
  | '0' :: 'X' :: r => value 16 r
  | '0' :: d :: r => value 8 (d :: r)
  | r => value 10 r

def tokensWithin : Nat → Octets → Option (List Token)
  | 0, _ => none
  | fuel + 1, s =>
    match s with
    | [] => some []
    | c :: r =>
      if c = ' ' ∨ c = '\t' ∨ c = '\n' then tokensWithin fuel r
      else if Text.isDigit c then do
        let n ← numeral? (s.takeWhile isNameChar)
        return .number n :: (← tokensWithin fuel (s.dropWhile isNameChar))
      else if isNameStart c then do
        return .name (s.takeWhile isNameChar) :: (← tokensWithin fuel (s.dropWhile isNameChar))
      else do
        let sign ← signs.find? fun sign => sign.toList.isPrefixOf s
        return .sign sign :: (← tokensWithin fuel (s.drop sign.length))

/-- Each token takes a character at least. -/
def tokens (s : Octets) : Option (List Token) := tokensWithin (s.length + 1) s

inductive Expression where
  | number (n : Int)
  | name (s : Octets)
  | unary (sign : String) (a : Expression)
  | binary (sign : String) (a b : Expression)
  | choice (a b c : Expression)
  | assign (name : Octets) (sign : String) (a : Expression)

/-- How tightly a sign between two expressions binds. -/
def strength : String → Option Nat
  | "||" => some 1
  | "&&" => some 2
  | "|" => some 3
  | "^" => some 4
  | "&" => some 5
  | "==" | "!=" => some 6
  | "<" | ">" | "<=" | ">=" => some 7
  | "<<" | ">>" => some 8
  | "+" | "-" => some 9
  | "*" | "/" | "%" => some 10
  | _ => none

def assignments : List (String × String) :=
  [("=", ""), ("+=", "+"), ("-=", "-"), ("*=", "*"), ("/=", "/"), ("%=", "%"), ("&=", "&"),
    ("^=", "^"), ("|=", "|"), ("<<=", "<<"), (">>=", ">>")]

namespace Expression

/-- What an expression reader is to read next: any expression, one whose signs all bind as
tightly at least as a level, or one without signs; `going` goes on after a left part. -/
inductive Goal where
  | whole
  | level (n : Nat)
  | single
  | going (n : Nat) (left : Expression)

def read : Nat → Goal → List Token → Option (Expression × List Token)
  | 0, _, _ => none
  | fuel + 1, .whole, s =>
    match s with
    | .name x :: .sign sign :: r =>
      match assignments.lookup sign with
      | some op => (read fuel .whole r).map fun (e, r) => (assign x op e, r)
      | none => choiceAfter fuel s
    | _ => choiceAfter fuel s
  | fuel + 1, .level n, s => do
    let (a, r) ← read fuel .single s
    read fuel (.going n a) r
  | fuel + 1, .going n a, s =>
    match s with
    | .sign sign :: r =>
      match strength sign with
      | some m =>
        if n ≤ m then do
          let (b, r) ← read fuel (.level (m + 1)) r
          read fuel (.going n (binary sign a b)) r
        else some (a, s)
      | none => some (a, s)
    | _ => some (a, s)
  | fuel + 1, .single, s =>
    match s with
    | .number n :: r => some (number n, r)
    | .name x :: r => some (name x, r)
    | .sign "(" :: r => do
      match ← read fuel .whole r with
      | (e, .sign ")" :: r) => some (e, r)
      | _ => none
    | .sign sign :: r =>
      if ["+", "-", "!", "~"].contains sign then
        (read fuel .single r).map fun (e, r) => (unary sign e, r)
      else none
    | [] => none
where
  choiceAfter (fuel : Nat) (s : List Token) : Option (Expression × List Token) := do
    let (a, r) ← read fuel (.level 1) s
    match r with
    | .sign "?" :: r =>
      let (b, r) ← read fuel .whole r
      match r with
      | .sign ":" :: r =>
        let (c, r) ← read fuel .whole r
        some (choice a b c, r)
      | _ => none
    | _ => some (a, r)

/-- Reads an expression; there are at most a few steps for each token. -/
def parse? (s : Octets) : Option Expression := do
  let ts ← tokens s
  if ts.isEmpty then some (number 0)
  else match ← read (4 * ts.length + 4) .whole ts with
    | (e, []) => some e
    | _ => none

def wrap (n : Int) : Int := n.bmod UInt64.size

def truth (b : Bool) : Int := if b then 1 else 0

def applyUnary (sign : String) (a : Int) : Int :=
  match sign with
  | "-" => wrap (-a)
  | "!" => truth (a = 0)
  | "~" => -a - 1
  | _ => a

/-- Applies a sign between two numbers; there is no result for a division by zero. -/
def applyBinary (sign : String) (a b : Int) : Option Int :=
  let word (n : Int) : Nat := (n.emod UInt64.size).toNat
  match sign with
  | "+" => some (wrap (a + b))
  | "-" => some (wrap (a - b))
  | "*" => some (wrap (a * b))
  | "/" => if b = 0 then none else some (wrap (a.tdiv b))
  | "%" => if b = 0 then none else some (a.tmod b)
  | "<" => some (truth (a < b))
  | ">" => some (truth (b < a))
  | "<=" => some (truth (a ≤ b))
  | ">=" => some (truth (b ≤ a))
  | "==" => some (truth (a = b))
  | "!=" => some (truth (a ≠ b))
  | "&" => some (wrap (word a &&& word b : Nat))
  | "|" => some (wrap (word a ||| word b : Nat))
  | "^" => some (wrap (word a ^^^ word b : Nat))
  | "<<" => some (wrap (a * Nat.pow 2 (word b % 64)))
  | ">>" => some (a.fdiv (Nat.pow 2 (word b % 64)))
  | _ => none

abbrev Values := List (Octets × Int)

/-- The value of an expression. `values` has the variables that it assigned so far, `given`
the others. -/
def eval (given : Octets → Option Int) (values : Values) : Expression → Option (Int × Values)
  | number n => some (wrap n, values)
  | name x => ((values.lookup x).orElse fun _ => given x).map fun n => (n, values)
  | unary sign a => (eval given values a).map fun (n, values) => (applyUnary sign n, values)
  | binary sign a b => do
    let (m, values) ← eval given values a
    if sign = "&&" ∧ m = 0 then return (0, values)
    if sign = "||" ∧ m ≠ 0 then return (1, values)
    let (n, values) ← eval given values b
    if sign = "&&" ∨ sign = "||" then return (truth (n ≠ 0), values)
    return (← applyBinary sign m n, values)
  | choice a b c => do
    let (m, values) ← eval given values a
    if m ≠ 0 then eval given values b else eval given values c
  | assign x sign a => do
    let (n, values) ← eval given values a
    let n ←
      if sign = "" then some n
      else do applyBinary sign (← (values.lookup x).orElse fun _ => given x) n
    return (n, (x, n) :: values)

end Expression

end Overseer.Shell
