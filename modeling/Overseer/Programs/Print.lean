import Overseer.Programs.Escape
import Overseer.Text.Digits

/-! Programs that print their arguments: `echo` with blanks between them, `printf` as a
format says. -/

namespace Overseer.Programs

open Text (Octets)

/-- Puts a separator between texts. -/
def joinWith (separator : Octets) : List Octets → Octets
  | [] => []
  | [a] => a
  | a :: r => a ++ separator ++ joinWith separator r

/-- Which backslashes `echo` reads: none, those of the shell, or hexadecimal ones, too. -/
inductive EchoStyle where
  | plain
  | escapes (hex : Bool)

/-- Arguments between blanks, and the end of the line unless that is left out. -/
def echo (style : EchoStyle) (newLine : Bool) (args : List Octets) : Octets :=
  let lineEnd := if newLine then ['\n'] else []
  let text := joinWith [' '] args
  match style with
  | .plain => text ++ lineEnd
  | .escapes hex =>
    let (out, go) := unescape (Escape.ofText hex) text
    if go then out ++ lineEnd else out

/-- The `echo` of the shell has one option and always reads backslashes. -/
def shellEcho : List Octets → Octets
  | ['-', 'n'] :: r => echo (.escapes false) false r
  | r => echo (.escapes false) true r

/-- The `echo` among programs reads backslashes where an option asks for it. -/
def programEcho (style : EchoStyle) (newLine : Bool) : List Octets → Octets
  | ('-' :: c :: flags) :: r =>
    if (c :: flags).all fun f => ['n', 'e', 'E'].contains f then
      let style := (c :: flags).foldl (fun s f =>
        if f = 'e' then .escapes true else if f = 'E' then .plain else s) style
      programEcho style (newLine && !(c :: flags).contains 'n') r
    else echo style newLine (('-' :: c :: flags) :: r)
  | r => echo style newLine r

/-- How a printed argument is laid out. -/
structure Layout where
  left : Bool := false
  zero : Bool := false
  plus : Bool := false
  blank : Bool := false
  alternate : Bool := false
  width : Nat := 0
  precision : Option Nat := none

namespace Layout

/-- Reads the signs before the width. -/
def readFlags (l : Layout) : Octets → Layout × Octets
  | '-' :: r => readFlags { l with left := true } r
  | '0' :: r => readFlags { l with zero := true } r
  | '+' :: r => readFlags { l with plus := true } r
  | ' ' :: r => readFlags { l with blank := true } r
  | '#' :: r => readFlags { l with alternate := true } r
  | s => (l, s)

/-- Fills up to the width with blanks. -/
def pad (l : Layout) (s : Octets) : Octets :=
  let filler := List.replicate (l.width - s.length) ' '
  if l.left then s ++ filler else filler ++ s

/-- A number with its sign or base in front of its digits. Zeros fill the precision, or else
the width where asked for. -/
def number (l : Layout) (sign digits : Octets) : Octets :=
  match l.precision with
  | some p => l.pad (sign ++ List.replicate (p - digits.length) '0' ++ digits)
  | none =>
    if l.zero && !l.left then
      sign ++ List.replicate (l.width - sign.length - digits.length) '0' ++ digits
    else l.pad (sign ++ digits)

end Layout

/-- A number as an argument gives it; the flag tells whether all of the argument is one. -/
def numberArgument (s : Octets) : Int × Bool :=
  match s with
  | [] => (0, true)
  | '\'' :: c :: r => ((c.toNat : Int), r.isEmpty)
  | '"' :: c :: r => ((c.toNat : Int), r.isEmpty)
  | s =>
    let (negative, body) := match s.dropWhile (· = ' ') with
      | '-' :: r => (true, r)
      | '+' :: r => (false, r)
      | r => (false, r)
    let (base, digits) : Nat × Octets := match body with
      | '0' :: 'x' :: r => (16, r)
      | '0' :: 'X' :: r => (16, r)
      | '0' :: r => (8, '0' :: r)
      | r => (10, r)
    let valid := digits.takeWhile fun c => (Text.hexDigit? c).any (· < base)
    let n : Nat := (valid.filterMap Text.hexDigit?).foldl (fun n d => n * base + d) 0
    (if negative then -(n : Int) else n, !valid.isEmpty && valid.length == digits.length)

def signOf (l : Layout) (n : Int) : Octets :=
  if n < 0 then ['-'] else if l.plus then ['+'] else if l.blank then [' '] else []

/-- What printing has given so far. `args` are still to come. -/
structure Printing where
  /-- Whether there are hexadecimal escapes. -/
  hex : Bool
  out : Octets := []
  args : List Octets
  /-- Arguments that are not the numbers they should be. -/
  faults : List Octets := []
  stopped : Bool := false

namespace Printing

def takeArgument (p : Printing) : Octets × Printing :=
  match p.args with
  | [] => ([], p)
  | a :: r => (a, { p with args := r })

def takeNumber (p : Printing) : Int × Printing :=
  let (a, p) := p.takeArgument
  let (n, whole) := numberArgument a
  (n, if whole then p else { p with faults := p.faults ++ [a] })

/-- A width or precision: digits, or a star for the next argument. -/
def readWidth (p : Printing) (s : Octets) : Option Nat × Octets × Printing :=
  match s with
  | '*' :: r =>
    let (n, p) := p.takeNumber
    (some n.toNat, r, p)
  | s => (Text.natural? (s.takeWhile Text.isDigit), s.dropWhile Text.isDigit, p)

/-- Prints one argument as a letter says. -/
def convert (p : Printing) (l : Layout) (letter : Char) : Printing :=
  match letter with
  | 's' =>
    let (a, p) := p.takeArgument
    { p with out := p.out ++ l.pad (match l.precision with
      | some n => a.take n
      | none => a) }
  | 'b' =>
    let (a, p) := p.takeArgument
    let (text, go) := unescape (Escape.ofText p.hex) a
    { p with out := p.out ++ l.pad text, stopped := !go }
  | 'c' =>
    let (a, p) := p.takeArgument
    { p with out := p.out ++ l.pad (a.take 1) }
  | 'd' | 'i' =>
    let (n, p) := p.takeNumber
    { p with out := p.out ++ l.number (signOf l n) (Nat.toDigits 10 n.natAbs) }
  | 'u' => unsigned p 10 [] id
  | 'o' => unsigned p 8 (if l.alternate then ['0'] else []) id
  | 'x' => unsigned p 16 (if l.alternate then ['0', 'x'] else []) id
  | 'X' => unsigned p 16 (if l.alternate then ['0', 'X'] else []) Char.toUpper
  | _ => { p with stopped := true }
where
  unsigned (p : Printing) (base : Nat) (lead : Octets) (f : Char → Char) : Printing :=
    let (n, p) := p.takeNumber
    { p with out := p.out ++ l.number lead ((Nat.toDigits base (n.emod UInt64.size).toNat).map f) }

/-- What stands after a percent sign. -/
def directive (p : Printing) (s : Octets) : Printing × Octets :=
  match s with
  | '%' :: r => ({ p with out := p.out ++ ['%'] }, r)
  | s =>
    let (l, s) := Layout.readFlags {} s
    let (width, s, p) := p.readWidth s
    let (precision, s, p) := match s with
      | '.' :: r =>
        let (n, r, p) := p.readWidth r
        (some (n.getD 0), r, p)
      | r => (none, r, p)
    let l := { l with width := width.getD 0, precision }
    match s with
    | [] => ({ p with stopped := true }, [])
    | c :: r => (p.convert l c, r)

/-- Goes through the format once. -/
def once : Nat → Printing → Octets → Printing
  | 0, p, _ => p
  | fuel + 1, p, s =>
    if p.stopped then p
    else match s with
      | [] => p
      | '%' :: r =>
        let (p, r) := p.directive r
        once fuel p r
      | '\\' :: r =>
        match Escape.ofFormat p.hex r with
        | .char c rest => once fuel { p with out := p.out ++ [c] } rest
        | _ => match r with
          | '"' :: rest => once fuel { p with out := p.out ++ ['"'] } rest
          | _ => once fuel { p with out := p.out ++ ['\\'] } r
      | c :: r =>
        let plain := (c :: r).takeWhile fun c => c ≠ '%' ∧ c ≠ '\\'
        once fuel { p with out := p.out ++ plain } ((c :: r).drop plain.length)

/-- Goes through the format until it has taken all arguments, or takes none. -/
def repeated (format : Octets) : Nat → Printing → Printing
  | 0, p => p
  | fuel + 1, p =>
    let q := once (format.length + 1) p format
    if q.stopped || q.args.isEmpty || q.args.length == p.args.length then q
    else repeated format fuel q

end Printing

/-- What `printf` prints, and the arguments that are not the numbers they should be. -/
def printf (hex : Bool) : List Octets → Octets × List Octets
  | [] => ([], [])
  | format :: args =>
    let p := Printing.repeated format (args.length + 1) { hex, args }
    (p.out, p.faults)

end Overseer.Programs
