import Overseer.Text.Digits

/-! Quoted text of a TOML document, in its four forms: basic and literal, on one line
or over several. Each reader starts after the opening quotes and gives back the text
with what follows the closing quotes. -/

namespace Overseer.Toml

open Text (hexDigit?)

/-- Control characters, which no quoted text or comment may hold; a tab is none. -/
def isControl (c : Char) : Bool := (c.toNat < 0x20 && c != '\t') || c.toNat == 0x7F

/-- What follows the end of a line. -/
def afterNewline? : List Char → Option (List Char)
  | '\n' :: r => some r
  | '\r' :: '\n' :: r => some r
  | _ => none

def isSpace (c : Char) : Bool := c == ' ' || c == '\t'

def skipSpace (s : List Char) : List Char := s.dropWhile isSpace

/-- Skips spaces, tabs and line ends. -/
def skipGap : List Char → List Char
  | ' ' :: r => skipGap r
  | '\t' :: r => skipGap r
  | '\n' :: r => skipGap r
  | '\r' :: '\n' :: r => skipGap r
  | s => s

theorem length_skipSpace (s : List Char) : (skipSpace s).length ≤ s.length :=
  (List.dropWhile_sublist _).length_le

theorem length_skipGap (s : List Char) : (skipGap s).length ≤ s.length := by
  fun_induction skipGap s <;> simp_all <;> omega

theorem length_afterNewline? {s r : List Char} (h : afterNewline? s = some r) :
    r.length < s.length := by
  unfold afterNewline? at h
  split at h
  · cases h
    exact Nat.lt_succ_self _
  · cases h
    exact Nat.lt_succ_of_lt (Nat.lt_succ_self _)
  · cases h

/-- The character whose number stands in `count` hexadecimal digits. -/
def hexChar? (count : Nat) (s : List Char) : Option (Char × List Char) := do
  let digits ← (s.take count).mapM hexDigit?
  let n := digits.foldl (fun n d => n * 16 + d) 0
  if digits.length = count ∧ n.isValidChar then some (Char.ofNat n, s.drop count) else none

/-- The characters that a letter or sign after a backslash stands for. -/
def plainEscapes : List (Char × Char) :=
  [('b', Char.ofNat 8), ('t', '\t'), ('n', '\n'), ('f', Char.ofNat 12), ('r', '\r'),
    ('e', Char.ofNat 27), ('"', '"'), ('\\', '\\')]

/-- How many hexadecimal digits a letter after a backslash announces. -/
def hexEscapes : List (Char × Nat) := [('x', 2), ('u', 4), ('U', 8)]

/-- The character that the text after a backslash stands for. -/
def escaped? : List Char → Option (Char × List Char)
  | [] => none
  | c :: r =>
    match hexEscapes.lookup c with
    | some count => hexChar? count r
    | none => (plainEscapes.lookup c).map fun d => (d, r)

theorem length_hexChar? {count : Nat} {s r : List Char} {c : Char}
    (h : hexChar? count s = some (c, r)) : r.length ≤ s.length := by
  simp only [hexChar?, Option.bind_eq_bind, Option.bind_eq_some_iff] at h
  obtain ⟨digits, _, h⟩ := h
  split at h
  · simp only [Option.some.injEq, Prod.mk.injEq] at h
    rw [← h.2, List.length_drop]
    omega
  · simp at h

theorem length_escaped? {s r : List Char} {c : Char} (h : escaped? s = some (c, r)) :
    r.length < s.length := by
  cases s with
  | nil => simp [escaped?] at h
  | cons d s =>
    rw [escaped?] at h
    split at h
    · exact Nat.lt_succ_of_le (length_hexChar? h)
    · obtain ⟨_, _, h⟩ := Option.map_eq_some_iff.1 h
      simp only [Prod.mk.injEq] at h
      simp [h.2]

/-- Text in double quotes on one line. -/
def basic? (s : List Char) : Option (List Char × List Char) :=
  match s with
  | [] => none
  | '"' :: r => some ([], r)
  | '\\' :: r =>
    match h : escaped? r with
    | none => none
    | some (c, r') =>
      have := length_escaped? h
      (basic? r').map fun (t, rest) => (c :: t, rest)
  | c :: r =>
    if isControl c then none else (basic? r).map fun (t, rest) => (c :: t, rest)
termination_by s.length

/-- Text in single quotes on one line: no escapes. -/
def literal? : List Char → Option (List Char × List Char)
  | [] => none
  | c :: r =>
    if c = '\'' then some ([], r)
    else if isControl c then none
    else (literal? r).map fun (t, rest) => (c :: t, rest)

/-- What `count` quotes in a row mean inside text that three of them close: text, or up to
two quotes of text and the end. -/
inductive QuoteRun where
  | text
  | close (extra : Nat)
  | excess

def QuoteRun.ofLength (count : Nat) : QuoteRun :=
  if count < 3 then .text else if count ≤ 5 then .close (count - 3) else .excess

theorem length_dropWhile_le (p : Char → Bool) (s : List Char) :
    (s.dropWhile p).length ≤ s.length :=
  (List.dropWhile_sublist p).length_le

/-- Text in three double quotes. A backslash before the end of a line skips all blanks and
line ends after it. -/
def multilineBasic? (s : List Char) : Option (List Char × List Char) :=
  match s with
  | [] => none
  | '"' :: r =>
    let count := (r.takeWhile (· = '"')).length + 1
    have := length_dropWhile_le (· = '"') r
    match QuoteRun.ofLength count with
    | .text =>
      (multilineBasic? (r.dropWhile (· = '"'))).map fun (t, rest) =>
        (List.replicate count '"' ++ t, rest)
    | .close extra => some (List.replicate extra '"', r.dropWhile (· = '"'))
    | .excess => none
  | '\\' :: r =>
    match h : afterNewline? (skipSpace r) with
    | some r' =>
      have := length_afterNewline? h
      have := length_skipSpace r
      have := length_skipGap r'
      multilineBasic? (skipGap r')
    | none =>
      match h : escaped? r with
      | none => none
      | some (c, r') =>
        have := length_escaped? h
        (multilineBasic? r').map fun (t, rest) => (c :: t, rest)
  | '\r' :: '\n' :: r => (multilineBasic? r).map fun (t, rest) => ('\r' :: '\n' :: t, rest)
  | c :: r =>
    if isControl c ∧ c ≠ '\n' then none
    else (multilineBasic? r).map fun (t, rest) => (c :: t, rest)
termination_by s.length

/-- Text in three single quotes. -/
def multilineLiteral? (s : List Char) : Option (List Char × List Char) :=
  match s with
  | [] => none
  | '\'' :: r =>
    let count := (r.takeWhile (· = '\'')).length + 1
    have := length_dropWhile_le (· = '\'') r
    match QuoteRun.ofLength count with
    | .text =>
      (multilineLiteral? (r.dropWhile (· = '\''))).map fun (t, rest) =>
        (List.replicate count '\'' ++ t, rest)
    | .close extra => some (List.replicate extra '\'', r.dropWhile (· = '\''))
    | .excess => none
  | '\r' :: '\n' :: r => (multilineLiteral? r).map fun (t, rest) => ('\r' :: '\n' :: t, rest)
  | c :: r =>
    if isControl c ∧ c ≠ '\n' then none
    else (multilineLiteral? r).map fun (t, rest) => (c :: t, rest)
termination_by s.length

/-- A line end right after three opening quotes is no part of the text. -/
def afterOpening (s : List Char) : List Char := (afterNewline? s).getD s

/-- Quoted text of one line, from its opening quote on. -/
def lineText? : List Char → Option (String × List Char)
  | '"' :: r => (basic? r).map fun (t, rest) => (String.ofList t, rest)
  | '\'' :: r => (literal? r).map fun (t, rest) => (String.ofList t, rest)
  | _ => none

/-- Quoted text of any form, from its opening quotes on. -/
def text? : List Char → Option (String × List Char)
  | '"' :: '"' :: '"' :: r =>
    (multilineBasic? (afterOpening r)).map fun (t, rest) => (String.ofList t, rest)
  | '\'' :: '\'' :: '\'' :: r =>
    (multilineLiteral? (afterOpening r)).map fun (t, rest) => (String.ofList t, rest)
  | s => lineText? s

end Overseer.Toml
