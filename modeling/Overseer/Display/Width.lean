import Overseer.Display.Emoji
import Overseer.Display.Ligature
import Overseer.Display.WideWidth
import Overseer.Display.ZeroWidth

/-! The number of columns that a text takes on a terminal, outside an East Asian context. This
is the measure of the library `unicode-width`: its tables and its rules are written out again
here and in the modules for emoji, ligatures, wide characters and those of no width.

A single character takes 0 to 3 columns. In a text some sequences take fewer or more than
their characters do alone: emoji sequences, and ligatures of several scripts. They are
found from the end of the text to its start, each character seeing what follows it. -/

namespace Overseer.Display

def inRanges (ranges : List (Nat × Nat)) (c : Char) : Bool :=
  ranges.any fun (low, high) => low ≤ c.toNat && c.toNat ≤ high

/-- The columns of a character that is no control character. -/
def baseWidth (c : Char) : Nat :=
  let n := c.toNat
  if n < 0xA1 then 1
  else if n = 0x17D8 then 3
  else if n = 0x115F ∨ n = 0x17A4 then 2
  else if inRanges zeroWidthRanges c then 0
  else if inRanges wideRanges c then 2
  else 1

def isControl (c : Char) : Bool := c.toNat < 0x20 || (0x7F ≤ c.toNat && c.toNat < 0xA0)

/-- The columns of a single character; a control character has none of its own. -/
def charWidth? (c : Char) : Option Nat := if isControl c then none else some (baseWidth c)

/-- What the character after the one in hand began, as far as that matters to it. -/
inductive Follower where
  | plain
  | lineFeed
  | modifier
  | regional
  | severalRegional
  | emoji
  /-- Emoji joined on, by U+200D, to what comes before. -/
  | joinedEmoji
  | joinedKeycap
  | joinedRegional
  | joinedEvenRegional
  | joinedOddRegional
  /-- The end of a tag sequence, with so many letters and then so many digits before it. -/
  | tagEnd (letters digits : Nat)
  | alef
  | lamed
  | buginseYa
  | buginseIYa
  | tifinagh
  | tifinaghJoined
  | lisuTone
  | turkicI
  | khmerLetter
  | kiratE
  | kiratAi
  deriving DecidableEq, Repr

/-- A variation selector met between the follower and the character in hand. -/
inductive Selector where
  | quote
  | text
  | emoji
  deriving DecidableEq, Repr

structure Ahead where
  follower : Follower := .plain
  selector : Option Selector := none
  /-- Whether U+200D stands between. -/
  joiner : Bool := false
  deriving DecidableEq, Repr

namespace Follower

/-- Ligatures that marks to be ignored may stand inside of. -/
def seesThrough : Follower → Bool
  | lamed | buginseYa | buginseIYa | tifinagh | tifinaghJoined | lisuTone | turkicI
  | khmerLetter => true
  | _ => false

/-- These keep a selector beside them; the others are forgotten for it. -/
def keepsSelector (f : Follower) : Bool := f.seesThrough || f = alef

def keepsEmojiSelector (f : Follower) : Bool :=
  f.keepsSelector || f = joinedEmoji || f = joinedKeycap

/-- Ligatures that need no joiner are as if joined. -/
def startsJoined : Follower → Bool
  | buginseIYa | tifinaghJoined | lisuTone | khmerLetter => true
  | _ => false

end Follower

namespace Ahead

def of (f : Follower) : Ahead := { follower := f }

def isPlain (a : Ahead) : Bool := a.follower = .plain && a.selector.isNone && !a.joiner

def select (a : Ahead) (s : Selector) : Ahead :=
  if a.follower.keepsSelector || (s = .emoji && a.follower.keepsEmojiSelector) then
    { a with selector := some s }
  else { selector := some s }

/-- Forgets the selector that did not apply. -/
def unselect (a : Ahead) : Ahead :=
  if a.follower.keepsSelector then { a with selector := none } else {}

end Ahead

def isRegional (c : Char) : Bool := 0x1F1E6 ≤ c.toNat && c.toNat ≤ 0x1F1FF

def isModifier (c : Char) : Bool := 0x1F3FB ≤ c.toNat && c.toNat ≤ 0x1F3FF

def isTifinagh (c : Char) : Bool :=
  (0x2D31 ≤ c.toNat && c.toNat ≤ 0x2D65) || c.toNat == 0x2D6F

def isTagLetter (c : Char) : Bool := 0xE0061 ≤ c.toNat && c.toNat ≤ 0xE007A

def isTagDigit (c : Char) : Bool := 0xE0030 ≤ c.toNat && c.toNat ≤ 0xE0039

def isQuote (c : Char) : Bool := [0x2018, 0x2019, 0x201C, 0x201D].contains c.toNat

/-- Combining marks that are to be ignored, and U+200D. -/
def isSeenThrough (c : Char) : Bool :=
  inRanges [(0x34F, 0x34F), (0x17B4, 0x17B5), (0x180B, 0x180D), (0x180F, 0x180F),
    (0x200D, 0x200D), (0xFE00, 0xFE0F), (0xE0100, 0xE01EF)] c

/-- What a character begins, seen from the one before it. -/
def beginning (c : Char) : Ahead :=
  let n := c.toNat
  if n = 0xFE0F then { selector := some .emoji }
  else if n = 0xFE0E then { selector := some .text }
  else if n = 0xFE01 then { selector := some .quote }
  else if isRegional c then .of .regional
  else if isModifier c then .of .modifier
  else if inRanges emojiPresentationRanges c then .of .emoji
  else if inRanges alefRanges c then .of .alef
  else if n = 0x5DC then .of .lamed
  else if n = 0x1A10 then .of .buginseYa
  else if isTifinagh c then .of .tifinagh
  else if n = 0xA4FC ∨ n = 0xA4FD then .of .lisuTone
  else if n = 0x10C03 then .of .turkicI
  else if inRanges subscriptRanges c then .of .khmerLetter
  else if n = 0x16D67 then .of .kiratE
  else if n = 0x16D68 then .of .kiratAi
  else {}

/-- The columns of a character alone, and what it begins. -/
def alone (c : Char) : Int × Ahead := (baseWidth c, beginning c)

/-- The columns a character adds before a follower with which it joins, if it does. -/
def joins? (a : Ahead) (c : Char) : Option (Int × Ahead) :=
  let n := c.toNat
  let joined := a.joiner || a.follower.startsJoined
  if a.selector.isSome then none
  else match a.follower with
    | .alef =>
      if inRanges lamRanges c then some (0, {})
      else if baseWidth c = 0 && !inRanges partingRanges c then some (0, .of .alef)
      else none
    | .lamed => if joined && n = 0x5D0 then some (0, {}) else none
    | .khmerLetter => if n = 0x17D2 then some (-1, {}) else none
    | .buginseYa => if joined && n = 0x1A17 then some (0, .of .buginseIYa) else none
    | .buginseIYa => if n = 0x1A15 then some (0, {}) else none
    | .tifinagh =>
      if n = 0x2D7F then some (1, .of .tifinaghJoined)
      else if joined && isTifinagh c then some (0, {})
      else none
    | .tifinaghJoined => if isTifinagh c then some (-1, {}) else none
    | .lisuTone => if 0xA4F8 ≤ n ∧ n ≤ 0xA4FB then some (0, {}) else none
    | .turkicI => if joined && n = 0x10C32 then some (0, {}) else none
    | .modifier =>
      if inRanges modifierBaseRanges c then some (0, .of .emoji)
      else if n = 0x200D then some (0, .of .joinedEmoji)
      else none
    | .regional => if isRegional c then some (1, .of .severalRegional) else none
    | .severalRegional =>
      if isRegional c then some (1, .of .severalRegional)
      else if n = 0x200D then some (0, .of .joinedEmoji)
      else none
    | .emoji => if n = 0x200D then some (0, .of .joinedEmoji) else none
    | .joinedEmoji =>
      if n = 0x20E3 then some (0, .of .joinedKeycap)
      else if isRegional c then some (1, .of .joinedRegional)
      else if isModifier c then some (0, .of .modifier)
      else if n = 0xE007F then some (0, .of (.tagEnd 0 0))
      else if inRanges emojiPresentationRanges c then some (0, .of .emoji)
      else none
    | .joinedRegional => if isRegional c then some (-1, .of .joinedEvenRegional) else none
    | .joinedOddRegional =>
      if isRegional c then some (-1, .of .joinedEvenRegional)
      else if n = 0x200D then some (0, .of .joinedEmoji)
      else none
    | .joinedEvenRegional =>
      if isRegional c then some (3, .of .joinedOddRegional)
      else if n = 0x200D then some (0, .of .joinedEmoji)
      else none
    | .tagEnd letters digits =>
      if digits = 0 && letters < 6 && isTagLetter c then some (0, .of (.tagEnd (letters + 1) 0))
      else if digits < 3 && letters < 5 && isTagDigit c then
        some (0, .of (.tagEnd letters (digits + 1)))
      else if n = 0x1F3F4 && (digits = 3 || (digits = 0 && 3 ≤ letters)) then some (0, .of .emoji)
      else none
    | .kiratE =>
      if n = 0x16D63 then some (0, {})
      else if n = 0x16D67 then some (0, .of .kiratAi)
      else if n = 0x16D68 then some (1, .of .kiratE)
      else if n = 0x16D69 then some (0, {})
      else none
    | .kiratAi => if n = 0x16D63 then some (0, {}) else none
    | _ => none

/-- The columns that a character adds to the text that follows it. -/
def step (a : Ahead) (c : Char) : Int × Ahead :=
  if a.selector = some .emoji && inRanges variationBaseRanges c then
    (if a.follower = .joinedEmoji || a.follower = .joinedKeycap then 0 else 2, .of .emoji)
  else
    let a := if a.selector = some .emoji then a.unselect else a
    if c.toNat ≤ 0xA0 then
      if c = '\n' then (1, .of .lineFeed)
      else if c = '\r' && a.follower = .lineFeed then (0, {})
      else (1, {})
    else if a.isPlain then alone c
    else if c.toNat = 0xFE0F then (0, a.select .emoji)
    else if c.toNat = 0xFE0E then (0, a.select .text)
    else if c.toNat = 0xFE01 then (0, a.select .quote)
    else if a.selector = some .text && inRanges textBaseRanges c then (1, {})
    else if a.selector = some .quote && isQuote c then (2, {})
    else
      let a := if a.selector.isSome then a.unselect else a
      if a.follower.seesThrough && c.toNat = 0x200D then (0, { a with joiner := true })
      else if a.follower.seesThrough && isSeenThrough c then (0, a)
      else (joins? a c).getD (alone c)

/-- Adds up columns from the end of a text, given last character first. -/
def columnsFrom (a : Ahead) (total : Int) : List Char → Int
  | [] => total
  | c :: r => let (w, a') := step a c; columnsFrom a' (total + w) r

/-- The number of columns of a text; a control character counts as one. -/
def textWidth (s : List Char) : Nat := (columnsFrom {} 0 s.reverse).toNat

end Overseer.Display
