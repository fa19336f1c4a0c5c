import Overseer.Shell.Arithmetic
import Overseer.Shell.Command

/-! Reading a script into a command. Each reader takes the text from where a thing starts
and gives back the thing with what follows it; `fuel` bounds how deep readers
call each other, and every call has taken a character or goes to a simpler reader. -/

namespace Overseer.Shell

open Text (Octets)

abbrev Reader (α : Type) := Octets → Except String (α × Octets)

def unterminated : String := "Unterminated quoted string"

def missingBrace : String := "Missing '\x7d'"

/-- Characters that end a word. -/
def isMeta (c : Char) : Bool := " \t\n;&|<>()".toList.contains c

/-- Words that have a meaning of their own where a command may start. -/
def reserved : List String :=
  ["if", "then", "else", "elif", "fi", "for", "while", "until", "do", "done", "case", "esac",
    "in", "!", "\x7b", "\x7d"]

/-- What is said of a text that stands where it may not. -/
def unexpected (s : Octets) : String :=
  match s with
  | [] => "end of file unexpected"
  | '\n' :: _ => "newline unexpected"
  | c :: d :: _ =>
    let word := String.ofList (s.takeWhile (!isMeta ·))
    if isMeta c then
      "\"" ++ String.ofList (if c = d ∧ c ≠ '(' ∧ c ≠ ')' then [c, d] else [c]) ++ "\" unexpected"
    else if reserved.contains word then "\"" ++ word ++ "\" unexpected"
    else "word unexpected"
  | [c] => if isMeta c then "\"" ++ String.ofList [c] ++ "\" unexpected" else "word unexpected"

/-- Skips blanks, continued lines and a comment. -/
def skipBlanks : Octets → Octets
  | ' ' :: r => skipBlanks r
  | '\t' :: r => skipBlanks r
  | '\\' :: '\n' :: r => skipBlanks r
  | '#' :: r => r.dropWhile (· ≠ '\n')
  | s => s

/-- Skips ends of lines, too. -/
def skipLinesWithin : Nat → Octets → Octets
  | 0, s => s
  | fuel + 1, s =>
    match skipBlanks s with
    | '\n' :: r => skipLinesWithin fuel r
    | r => r

def skipLines (s : Octets) : Octets := skipLinesWithin (s.length + 1) s

/-- The word of plain characters that a text starts with. -/
def plainWord (s : Octets) : String := String.ofList (s.takeWhile (!isMeta ·))

/-- Words that end a list of commands. -/
def closers : List String := ["then", "else", "elif", "fi", "do", "done", "esac", "\x7d"]

def expectWord (word : String) (s : Octets) : Except String Octets :=
  let s := skipLines s
  if plainWord s = word then .ok (s.drop word.length)
  else .error (unexpected s ++ " (expecting \"" ++ word ++ "\")")

def expectSign (sign : Char) (s : Octets) : Except String Octets :=
  match s with
  | c :: r => if c = sign then .ok r else fault
  | [] => fault
where
  fault : Except String Octets :=
    .error (unexpected s ++ " (expecting \"" ++ String.ofList [sign] ++ "\")")

/-- Characters that name a parameter by themselves. -/
def isSpecial (c : Char) : Bool := "@*#?-$!".toList.contains c || Text.isDigit c

/-- Up to the next backquote; a backslash takes the meaning from a backquote, a backslash and
a dollar sign. -/
def readBackquoted : Reader Octets
  | [] => .error "EOF in backquote substitution"
  | '`' :: r => .ok ([], r)
  | '\\' :: c :: r =>
    (readBackquoted r).map fun (s, rest) =>
      (if ['`', '\\', '$'].contains c then c :: s else '\\' :: c :: s, rest)
  | c :: r => (readBackquoted r).map fun (s, rest) => (c :: s, rest)

/-- Where parts of a word stand: outside of quotes, in double quotes, in text that lines give,
in braces, or in an expression so deep in parentheses. -/
inductive Place where
  | word
  | quotes
  | document
  | braces (inQuotes : Bool)
  | expression (depth : Nat)

def Place.inQuotes : Place → Bool
  | word => false
  | quotes | document => true
  | braces b => b
  | expression _ => true

/-- Quotes make a field also of no text, but for the arguments all in one. -/
def markedParts : List Part → List Part
  | [.parameter ['@'] .value inQuotes] => [.parameter ['@'] .value inQuotes]
  | ps => .quoted [] :: ps

/-- The name of a parameter: a sign, one digit or more, or a name. -/
def readName (s : Octets) : Option (Octets × Octets) :=
  match s with
  | c :: r =>
    if isNameStart c then some (s.takeWhile isNameChar, s.dropWhile isNameChar)
    else if Text.isDigit c then some (s.takeWhile Text.isDigit, s.dropWhile Text.isDigit)
    else if isSpecial c then some ([c], r)
    else none
  | [] => none

/-- Whether the text starts a redirection: digits, if any, then a sign. -/
def redirection? (s : Octets) : Option (Option Nat × Octets) :=
  let rest := s.dropWhile Text.isDigit
  match rest with
  | '<' :: _ | '>' :: _ => some (Text.natural? (s.takeWhile Text.isDigit), rest)
  | _ => none

/-- The name before an equals sign, if the text starts with an assignment. -/
def assignment? (s : Octets) : Option (Octets × Octets) :=
  match s with
  | c :: _ =>
    if isNameStart c then
      match s.dropWhile isNameChar with
      | '=' :: r => some (s.takeWhile isNameChar, r)
      | _ => none
    else none
  | [] => none

/-- The lines up to one that is the mark, and what follows it; tabs may stand before them. -/
def linesUpTo (mark : Octets) (tabs : Bool) : Nat → Octets → Octets × Octets
  | 0, s => ([], s)
  | fuel + 1, s =>
    let s := if tabs then s.dropWhile (· = '\t') else s
    let line := s.takeWhile (· ≠ '\n')
    let rest := s.drop (line.length + 1)
    if s.isEmpty ∨ line = mark then ([], rest)
    else
      let (text, rest) := linesUpTo mark tabs fuel rest
      (line ++ '\n' :: text, rest)

/-- Takes the lines of a document out of a script, from the line after the one at hand on. -/
def takeDocument (mark : Octets) (tabs : Bool) (s : Octets) : Octets × Octets :=
  let line := s.takeWhile (· ≠ '\n')
  let below := s.drop (line.length + 1)
  let (text, rest) := linesUpTo mark tabs (below.length + 1) below
  (text, line ++ '\n' :: rest)

/-- The mark at the end of a document, without its quotes, and whether it has some. -/
def readMark (s : Octets) : Octets × Bool × Octets :=
  let s := skipBlanks (if s.head? = some '-' then s.drop 1 else s)
  let raw := s.takeWhile (!isMeta ·)
  let isQuote (c : Char) : Bool := ['"', '\'', '\\'].contains c
  (raw.filter (!isQuote ·), raw.any isQuote, s.drop raw.length)

/-- The sign of a redirection, with the descriptor that it is about by itself. -/
def readOpening : Octets → Nat × Opening × Octets
  | '>' :: '>' :: r => (1, .append, r)
  | '>' :: '&' :: r => (1, .same, r)
  | '>' :: '|' :: r => (1, .write, r)
  | '>' :: r => (1, .write, r)
  | '<' :: '&' :: r => (0, .same, r)
  | '<' :: '<' :: '-' :: r => (0, .text, '-' :: r)
  | '<' :: '<' :: r => (0, .text, r)
  | s => (0, .read, s.drop 1)

mutual
def readParts (fuel : Nat) (place : Place) (s : Octets) : Except String (List Part × Octets) :=
  match fuel with
  | 0 => .error "too deep"
  | fuel + 1 =>
    let more (p : Part) (r : Octets) : Except String (List Part × Octets) :=
      (readParts fuel place r).map fun (ps, rest) => (p :: ps, rest)
    match place, s with
    | .word, [] | .document, [] => .ok ([], [])
    | .braces _, [] => .error missingBrace
    | _, [] => .error unterminated
    | _, '\\' :: '\n' :: r => readParts fuel place r
    | _, '$' :: r => do
      let (p, rest) ← readDollar fuel place.inQuotes r
      more p rest
    | _, '`' :: r => do
      let (script, rest) ← readBackquoted r
      let (body, _) ← readList fuel script
      more (.output body place.inQuotes) rest
    | .quotes, '"' :: r => .ok ([], r)
    | .quotes, '\\' :: c :: r =>
      if ['$', '`', '"', '\\'].contains c then more (.quoted [c]) r
      else more (.quoted ['\\', c]) r
    | .document, '\\' :: c :: r =>
      if ['$', '`', '\\'].contains c then more (.quoted [c]) r else more (.quoted ['\\', c]) r
    | .quotes, c :: r | .document, c :: r => more (.quoted [c]) r
    | .expression depth, '(' :: r =>
      (readParts fuel (.expression (depth + 1)) r).map fun (ps, rest) => (.plain ['('] :: ps, rest)
    | .expression 0, ')' :: ')' :: r => .ok ([], r)
    | .expression (depth + 1), ')' :: r =>
      (readParts fuel (.expression depth) r).map fun (ps, rest) => (.plain [')'] :: ps, rest)
    | .expression _, c :: r => more (.plain [c]) r
    | .braces _, c :: r =>
      if c = Char.ofNat 0x7D then .ok ([], r)
      else if c = '"' then do
        let (inner, rest) ← readParts fuel .quotes r
        (readParts fuel place rest).map fun (ps, rest) => (markedParts inner ++ ps, rest)
      else if c = '\'' ∧ !place.inQuotes then quotedText r more
      else if c = '\\' then more (.quoted (r.take 1)) (r.drop 1)
      else more (if place.inQuotes then .quoted [c] else .plain [c]) r
    | .word, '"' :: r => do
      let (inner, rest) ← readParts fuel .quotes r
      (readParts fuel place rest).map fun (ps, rest) => (markedParts inner ++ ps, rest)
    | .word, '\'' :: r => quotedText r more
    | .word, '\\' :: c :: r => more (.quoted [c]) r
    | .word, c :: r => if isMeta c then .ok ([], s) else more (.plain [c]) r
where
  quotedText (r : Octets) (more : Part → Octets → Except String (List Part × Octets)) :
      Except String (List Part × Octets) :=
    match r.dropWhile (· ≠ '\'') with
    | [] => .error unterminated
    | _ :: rest => more (.quoted (r.takeWhile (· ≠ '\''))) rest

/-- What follows a dollar sign. -/
def readDollar (fuel : Nat) (inQuotes : Bool) (s : Octets) : Except String (Part × Octets) :=
  match fuel with
  | 0 => .error "too deep"
  | fuel + 1 =>
    match s with
    | '(' :: '(' :: r => do
      let (e, rest) ← readParts fuel (.expression 0) r
      return (.arithmetic e inQuotes, rest)
    | '(' :: r => do
      let (body, rest) ← readList fuel r
      return (.output body inQuotes, ← expectSign ')' (skipLines rest))
    | '\x7b' :: r => readBraced fuel inQuotes r
    | _ =>
      match readName s with
      | some (name, rest) =>
        if (name.head?.any Text.isDigit) then
          .ok (.parameter (name.take 1) .value inQuotes, s.drop 1)
        else .ok (.parameter name .value inQuotes, rest)
      | none => .ok (if inQuotes then .quoted ['$'] else .plain ['$'], s)

/-- A parameter in braces. -/
def readBraced (fuel : Nat) (inQuotes : Bool) (s : Octets) : Except String (Part × Octets) :=
  match fuel with
  | 0 => .error "too deep"
  | fuel + 1 =>
    match s with
    | '#' :: '\x7d' :: r => .ok (.parameter ['#'] .value inQuotes, r)
    | '#' :: r =>
      match readName r with
      | some (name, '\x7d' :: rest) => .ok (.parameter name .length inQuotes, rest)
      | _ => .error "Bad substitution"
    | _ =>
      match readName s with
      | none => .error "Bad substitution"
      | some (name, rest) => do
        let word (quotes : Bool) (r : Octets) (use : Word → Use Word) :
            Except String (Part × Octets) := do
          let (w, rest) ← readParts fuel (.braces quotes) r
          return (.parameter name (use w) inQuotes, rest)
        match rest with
        | '\x7d' :: r => .ok (.parameter name .value inQuotes, r)
        | [] => .error missingBrace
        | ':' :: '-' :: r => word inQuotes r (.default true)
        | '-' :: r => word inQuotes r (.default false)
        | ':' :: '=' :: r => word inQuotes r (.assign true)
        | '=' :: r => word inQuotes r (.assign false)
        | ':' :: '+' :: r => word inQuotes r (.alternative true)
        | '+' :: r => word inQuotes r (.alternative false)
        | ':' :: '?' :: r => word inQuotes r (.require true)
        | '?' :: r => word inQuotes r (.require false)
        | '#' :: '#' :: r => word false r (.removeStart true)
        | '#' :: r => word false r (.removeStart false)
        | '%' :: '%' :: r => word false r (.removeEnd true)
        | '%' :: r => word false r (.removeEnd false)
        | _ => .error "Bad substitution"

/-- The rest of a simple command: assignments as long as there is no word, then words, with
redirections anywhere. -/
def readSimple (fuel : Nat) (assignments : List (Octets × Word)) (words : List Word)
    (targets : List (Nat × Opening × Word)) (s : Octets) : Except String (Command × Octets) :=
  match fuel with
  | 0 => .error "too deep"
  | fuel + 1 =>
    let s := skipBlanks s
    match redirection? s with
    | some (descriptor, r) => do
      let (own, opening, r) := readOpening r
      let r' := skipBlanks r
      if r'.head?.all isMeta then throw (unexpected r')
      if opening = .text then
        let (mark, isQuoted, rest) := readMark r'
        let (text, rest) := takeDocument mark (r.head? = some '-') rest
        let w ← if isQuoted then pure [.quoted text]
          else (·.1) <$> readParts fuel .document text
        readSimple fuel assignments words (targets ++ [(descriptor.getD own, .text, w)]) rest
      else
        let (w, r) ← readParts fuel .word r'
        readSimple fuel assignments words (targets ++ [(descriptor.getD own, opening, w)]) r
    | none =>
      if s.head?.all isMeta then
        let body := Command.simple assignments words
        .ok (if targets.isEmpty then body else .redirected body targets, s)
      else match if words.isEmpty then assignment? s else none with
        | some (name, r) => do
          let (w, r) ← readParts fuel .word r
          readSimple fuel (assignments ++ [(name, w)]) words targets r
        | none => do
          let (w, r) ← readParts fuel .word s
          readSimple fuel assignments (words ++ [w]) targets r

/-- Redirections after a compound command. -/
def readTargets (fuel : Nat) (body : Command) (s : Octets) : Except String (Command × Octets) := do
  match fuel with
  | 0 => .error "too deep"
  | fuel + 1 =>
    match ← readSimple fuel [] [] [] s with
    | (.simple [] [], r) => return (body, r)
    | (.redirected (.simple [] []) targets, r) => return (.redirected body targets, r)
    | _ => throw (unexpected s)

/-- The branches of an `if`, after its first word. -/
def readBranches (fuel : Nat) (s : Octets) : Except String (Command × Octets) :=
  match fuel with
  | 0 => .error "too deep"
  | fuel + 1 => do
    let (test, r) ← readList fuel s
    let (yes, r) ← readList fuel (← expectWord "then" r)
    let r := skipLines r
    if plainWord r = "elif" then
      let (no, r) ← readBranches fuel (r.drop 4)
      return (.conditional test yes no, r)
    else if plainWord r = "else" then
      let (no, r) ← readList fuel (r.drop 4)
      return (.conditional test yes no, ← expectWord "fi" r)
    else return (.conditional test yes .skip, ← expectWord "fi" r)

/-- Words up to the end of the command. -/
def readWords (fuel : Nat) (s : Octets) : Except String (List Word × Octets) :=
  match fuel with
  | 0 => .error "too deep"
  | fuel + 1 =>
    let s := skipBlanks s
    if s.head?.all isMeta then .ok ([], s)
    else do
      let (w, r) ← readParts fuel .word s
      let (ws, r) ← readWords fuel r
      return (w :: ws, r)

/-- Patterns between bars up to a closing parenthesis. -/
def readPatterns (fuel : Nat) (s : Octets) : Except String (List Word × Octets) :=
  match fuel with
  | 0 => .error "too deep"
  | fuel + 1 => do
    let (w, r) ← readParts fuel .word (skipBlanks s)
    match skipBlanks r with
    | '|' :: r =>
      let (ws, r) ← readPatterns fuel r
      return (w :: ws, r)
    | r => return ([w], ← expectSign ')' r)

/-- The branches of a `case`, up to its last word. -/
def readCases (fuel : Nat) (s : Octets) :
    Except String (List (List Word × Command) × Octets) :=
  match fuel with
  | 0 => .error "too deep"
  | fuel + 1 => do
    let s := skipLines s
    if plainWord s = "esac" then return ([], s.drop 4)
    let s := match s with
      | '(' :: r => r
      | s => s
    let (patterns, r) ← readPatterns fuel s
    let (body, r) ← readList fuel r
    match skipLines r with
    | ';' :: ';' :: r =>
      let (branches, r) ← readCases fuel r
      return ((patterns, body) :: branches, r)
    | r => return ([(patterns, body)], ← expectWord "esac" r)

/-- One command without a pipe. -/
def readCommand (fuel : Nat) (s : Octets) : Except String (Command × Octets) :=
  match fuel with
  | 0 => .error "too deep"
  | fuel + 1 =>
    match s with
    | '(' :: r => do
      let (body, r) ← readList fuel r
      readTargets fuel (.subshell body) (← expectSign ')' (skipLines r))
    | _ =>
      let compound (c : Command × Octets) := readTargets fuel c.1 c.2
      match plainWord s with
      | "\x7b" => do
        let (body, r) ← readList fuel (s.drop 1)
        compound (body, ← expectWord "\x7d" r)
      | "if" => do compound (← readBranches fuel (s.drop 2))
      | "while" | "until" => do
        let (test, r) ← readList fuel (s.drop 5)
        let (body, r) ← readList fuel (← expectWord "do" r)
        compound (.loop (plainWord s = "until") test body false, ← expectWord "done" r)
      | "for" => do
        let r := skipBlanks (s.drop 3)
        match readName r with
        | none => throw "Bad for loop variable"
        | some (name, r) =>
          let r := skipLines r
          let (words, r) ←
            if plainWord r = "in" then do
              let (ws, r) ← readWords fuel (r.drop 2)
              pure (some ws, r)
            else pure (none, r)
          let r := match skipBlanks r with
            | ';' :: r => r
            | r => r
          let (body, r) ← readList fuel (← expectWord "do" r)
          compound (.forEach name words body, ← expectWord "done" r)
      | "case" => do
        let (w, r) ← readParts fuel .word (skipBlanks (s.drop 4))
        let (branches, r) ← readCases fuel (← expectWord "in" r)
        compound (.choose w branches, r)
      | name =>
        if closers.contains name then .error (unexpected s)
        else match readName s with
          | some (f, '(' :: r) =>
            match skipBlanks r with
            | ')' :: r => do
              let (body, r) ← readCommand fuel (skipLines r)
              return (.define f body, r)
            | r => .error (unexpected r ++ " (expecting \")\")")
          | _ =>
            if s.head?.all isMeta ∧ (redirection? s).isNone then .error (unexpected s)
            else readSimple fuel [] [] [] s

/-- Commands between bars. -/
def readPipes (fuel : Nat) (s : Octets) : Except String (List Command × Octets) :=
  match fuel with
  | 0 => .error "too deep"
  | fuel + 1 => do
    let (c, r) ← readCommand fuel s
    match skipBlanks r with
    | '|' :: '|' :: r => return ([c], '|' :: '|' :: r)
    | '|' :: r =>
      let (cs, r) ← readPipes fuel (skipLines r)
      return (c :: cs, r)
    | r => return ([c], r)

/-- A pipeline, which a sign may negate. -/
def readPipeline (fuel : Nat) (s : Octets) : Except String (Command × Octets) :=
  match fuel with
  | 0 => .error "too deep"
  | fuel + 1 => do
    if plainWord s = "!" then
      let (c, r) ← readPipeline fuel (skipBlanks (s.drop 1))
      return (.negated c, r)
    else
      let (cs, r) ← readPipes fuel s
      match cs with
      | [c] => return (c, r)
      | cs => return (.pipeline cs, r)

/-- Goes on after a pipeline: what follows `&&` or `||` depends on all before it. -/
def readChain (fuel : Nat) (first : Command) (s : Octets) : Except String (Command × Octets) :=
  match fuel with
  | 0 => .error "too deep"
  | fuel + 1 => do
    match skipBlanks s with
    | '&' :: '&' :: r =>
      let (c, r) ← readPipeline fuel (skipLines r)
      readChain fuel (.both first c) r
    | '|' :: '|' :: r =>
      let (c, r) ← readPipeline fuel (skipLines r)
      readChain fuel (.either first c) r
    | r => return (first, r)

/-- The commands of a list up to its end or to a word or sign that closes it. -/
def readCommands (fuel : Nat) (s : Octets) : Except String (List Command × Octets) :=
  match fuel with
  | 0 => .error "too deep"
  | fuel + 1 =>
    let s := skipLines s
    match s with
    | [] => .ok ([], [])
    | ')' :: _ | ';' :: ';' :: _ => .ok ([], s)
    | _ =>
      if closers.contains (plainWord s) then .ok ([], s)
      else do
        let (first, r) ← readPipeline fuel s
        let (c, r) ← readChain fuel first r
        match skipBlanks r with
        | ';' :: ';' :: r => return ([c], ';' :: ';' :: r)
        | ';' :: r | '\n' :: r =>
          let (cs, r) ← readCommands fuel r
          return (c :: cs, r)
        | '&' :: r =>
          let (cs, r) ← readCommands fuel r
          return (.background c :: cs, r)
        | r => return ([c], r)

/-- A list of commands. -/
def readList (fuel : Nat) (s : Octets) : Except String (Command × Octets) :=
  match fuel with
  | 0 => .error "too deep"
  | fuel + 1 => (readCommands fuel s).map fun (cs, r) => (.sequence cs, r)
end

/-- Reads a whole script. -/
def parse (s : Octets) : Except String Command := do
  let (c, r) ← readList (16 * s.length + 32) s
  if r.isEmpty then return c else throw (unexpected r)

end Overseer.Shell
