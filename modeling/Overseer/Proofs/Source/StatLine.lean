import Overseer.Proofs.Source.Status
import Overseer.Proofs.Text.Offsets

/-! Which texts are status lines, and that reading one always comes to an end. `parseAt_eq`: a
reader that goes by places in bytes and by numbers of fields never asks for a place within a
character or for a field that is not there, and reads what `parse?` does.
`reads_what_is_written` adds when that is a line, and that a written line is read back. -/

namespace Overseer.StatLine

open Text (isBlank words byteLength cutAt? between? offset? lastOffset?)

/-! ## Places and numbers of fields -/

/-- What a reader by places and numbers can fail at. -/
inductive Fault where
  | place
  | field
  deriving DecidableEq, Repr

/-- The name, and what stands after it. A name that ends before it starts is none. -/
def nameAt (s : List Char) : Except Fault (Option (List Char × List Char)) :=
  match offset? '(' s, lastOffset? ')' s with
  | some first, some last =>
    match between? (first + 1) last s with
    | none => .ok none
    | some name =>
      match cutAt? (last + 1) s with
      | none => .error .place
      | some (_, rest) => .ok (some (name, rest))
  | _, _ => .ok none

def fieldAt (fields : List (List Char)) (i : Nat) : Except Fault (List Char) :=
  match fields[i]? with
  | some field => .ok field
  | none => .error .field

def fieldsAt (name : List Char) (fields : List (List Char)) : Except Fault StatLine := do
  let state ← fieldAt fields 0
  let parent ← fieldAt fields 1
  let userTicks ← fieldAt fields 11
  let systemTicks ← fieldAt fields 12
  let threads ← fieldAt fields 17
  let startTicks ← fieldAt fields 19
  let virtualBytes ← fieldAt fields 20
  let residentPages ← fieldAt fields 21
  return {
    name
    state := state.headD '?'
    parent := (Text.unsigned32? parent).getD 0
    userTicks := (Text.unsigned64? userTicks).getD 0
    systemTicks := (Text.unsigned64? systemTicks).getD 0
    threads := (Text.unsigned32? threads).getD 0
    startTicks := (Text.unsigned64? startTicks).getD 0
    virtualBytes := (Text.unsigned64? virtualBytes).getD 0
    residentPages := UInt64.ofNat ((Text.signed? residentPages).getD 0).toNat }

/-- Reads a status line by places and numbers. -/
def parseAt (s : List Char) : Except Fault (Option StatLine) := do
  match ← nameAt s with
  | none => return none
  | some (name, rest) =>
    if (words rest).length < fieldCount then return none
    else return some (← fieldsAt name (words rest))

theorem fieldAt_eq {fields : List (List Char)} {i : Nat} (h : i < fields.length) :
    fieldAt fields i = .ok (fields.getD i []) := by
  rw [fieldAt, List.getElem?_eq_getElem h, List.getD_eq_getElem _ _ h]

theorem fieldsAt_eq (name : List Char) {fields : List (List Char)}
    (h : fieldCount ≤ fields.length) : fieldsAt name fields = .ok (ofFields name fields) := by
  have hfield (i : Nat) (hi : i < 22) : fieldAt fields i = .ok (fields.getD i []) :=
    fieldAt_eq (Nat.lt_of_lt_of_le hi h)
  rw [fieldsAt, hfield 0 (by decide), hfield 1 (by decide), hfield 11 (by decide),
    hfield 12 (by decide), hfield 17 (by decide), hfield 19 (by decide), hfield 20 (by decide),
    hfield 21 (by decide)]
  rfl

/-! ## Where the parentheses stand -/

/-- The name of a text reaches from its first opening parenthesis to its last closing one. -/
structure Named (s before name rest : List Char) : Prop where
  text : s = before ++ '(' :: (name ++ ')' :: rest)
  before : '(' ∉ before
  rest : ')' ∉ rest

/-- The last closing parenthesis of a text stands before the first opening one. -/
structure Reversed (s before middle rest : List Char) : Prop where
  text : s = before ++ ')' :: (middle ++ '(' :: rest)
  before : '(' ∉ before ++ ')' :: middle
  rest : ')' ∉ middle ++ '(' :: rest

theorem exists_last {c : Char} {s : List Char} (h : c ∈ s) :
    ∃ before rest, s = before ++ c :: rest ∧ c ∉ rest := by
  obtain ⟨after, front, hreverse, hfirst⟩ := List.eq_append_cons_of_mem (List.mem_reverse.mpr h)
  refine ⟨front.reverse, after.reverse, ?_, by simpa using hfirst⟩
  rw [← s.reverse_reverse, hreverse]
  simp

/-- A text lacks one of the parentheses, or has a name, or has them the wrong way round. -/
theorem named_or_reversed (s : List Char) :
    ('(' ∉ s ∨ ')' ∉ s) ∨ (∃ before name rest, Named s before name rest) ∨
      ∃ before middle rest, Reversed s before middle rest := by
  by_cases hopen : '(' ∈ s
  · by_cases hclose : ')' ∈ s
    · right
      obtain ⟨before, after, rfl, hbefore⟩ := List.eq_append_cons_of_mem hopen
      obtain ⟨front, rest, heq, hrest⟩ := exists_last hclose
      rcases List.append_eq_append_iff.mp heq with ⟨name, rfl, hname⟩ | ⟨middle, rfl, hmiddle⟩
      · left
        cases name with
        | nil => cases hname
        | cons c name =>
          obtain ⟨rfl, rfl⟩ := List.cons.inj hname
          exact ⟨before, name, rest, rfl, hbefore, hrest⟩
      · right
        cases middle with
        | nil => cases hmiddle
        | cons c middle =>
          obtain ⟨rfl, rfl⟩ := List.cons.inj hmiddle
          exact ⟨front, middle, after, by simp, hbefore, hrest⟩
    · exact .inl (.inr hclose)
  · exact .inl (.inl hopen)

theorem splitName?_absent {s : List Char} (h : '(' ∉ s ∨ ')' ∉ s) : splitName? s = none := by
  unfold splitName?
  rcases h with h | h
  · rw [(Text.findIdx?_absent h).1]
  · rw [(Text.findIdx?_absent h).2]
    split <;> simp_all

theorem Named.splitName? {s before name rest : List Char} (h : Named s before name rest) :
    splitName? s = some (name, rest) := by
  rw [h.text]
  exact splitName?_between h.before h.rest

theorem Reversed.splitName? {s before middle rest : List Char}
    (h : Reversed s before middle rest) : splitName? s = none := by
  have hfirst : s.findIdx? (· == '(') = some (before ++ ')' :: middle).length := by
    rw [h.text, ← List.cons_append, ← List.append_assoc]
    exact Text.findIdx?_first h.before rest
  have hlast : s.reverse.findIdx? (· == ')') = some (middle ++ '(' :: rest).length := by
    rw [h.text]
    exact Text.findIdx?_last h.rest before
  have hlength := congrArg List.length h.text
  simp only [List.length_append, List.length_cons] at hfirst hlast hlength
  unfold StatLine.splitName?
  rw [hfirst, hlast]
  dsimp only
  rw [if_neg (by omega)]

/-! ## Both readers agree -/

theorem nameAt_absent {s : List Char} (h : '(' ∉ s ∨ ')' ∉ s) : nameAt s = .ok none := by
  unfold nameAt offset? lastOffset?
  rcases h with h | h
  · rw [(Text.findIdx?_absent h).1]
    rfl
  · rw [(Text.findIdx?_absent h).2]
    split <;> simp_all

theorem byteLength_parenthesis {c : Char} (h : c = '(' ∨ c = ')') (s : List Char) :
    byteLength s + 1 = byteLength (s ++ [c]) := by
  rw [Text.byteLength_append]
  rcases h with rfl | rfl <;> rfl

/-- The place of a parenthesis and the next one are between characters, for it takes one byte. -/
theorem Named.nameAt {s before name rest : List Char} (h : Named s before name rest) :
    nameAt s = .ok (some (name, rest)) := by
  have hlast : s = (before ++ '(' :: name) ++ ')' :: rest := by
    rw [h.text, List.append_assoc, List.cons_append]
  have hoffset : offset? '(' s = some (byteLength before) := by
    rw [h.text]
    exact Text.offset?_first h.before _
  have hlastOffset : lastOffset? ')' s = some (byteLength (before ++ '(' :: name)) := by
    rw [hlast]
    exact Text.lastOffset?_last h.rest _
  have hname : between? (byteLength before + 1) (byteLength (before ++ '(' :: name)) s =
      some name := by
    rw [hlast, byteLength_parenthesis (.inl rfl), List.append_cons before '(' name]
    exact Text.between?_append (before ++ ['(']) name _
  have hrest : cutAt? (byteLength (before ++ '(' :: name) + 1) s =
      some (before ++ '(' :: name ++ [')'], rest) := by
    rw [hlast, byteLength_parenthesis (.inr rfl), List.append_cons _ ')' rest]
    exact Text.cutAt?_append _ _
  unfold StatLine.nameAt
  rw [hoffset, hlastOffset]
  dsimp only
  rw [hname]
  dsimp only
  rw [hrest]

theorem Reversed.nameAt {s before middle rest : List Char} (h : Reversed s before middle rest) :
    nameAt s = .ok none := by
  have hoffset : offset? '(' s = some (byteLength (before ++ ')' :: middle)) := by
    rw [h.text, ← List.cons_append, ← List.append_assoc]
    exact Text.offset?_first h.before rest
  have hlastOffset : lastOffset? ')' s = some (byteLength before) := by
    rw [h.text]
    exact Text.lastOffset?_last h.rest before
  have hname : between? (byteLength (before ++ ')' :: middle) + 1) (byteLength before) s =
      none := by
    rw [h.text]
    refine Text.between?_reversed before _ ?_
    rw [Text.byteLength_append]
    omega
  unfold StatLine.nameAt
  rw [hoffset, hlastOffset]
  dsimp only
  rw [hname]

/-- The name, found by places, is the one found by characters. -/
theorem nameAt_eq (s : List Char) : nameAt s = .ok (splitName? s) := by
  rcases named_or_reversed s with h | ⟨before, name, rest, h⟩ | ⟨before, middle, rest, h⟩
  · rw [nameAt_absent h, splitName?_absent h]
  · rw [h.nameAt, h.splitName?]
  · rw [h.nameAt, h.splitName?]

theorem parseAt_eq (s : List Char) : parseAt s = .ok (parse? s) := by
  rw [parseAt, nameAt_eq, parse?]
  cases hname : splitName? s with
  | none => rfl
  | some found =>
    obtain ⟨name, rest⟩ := found
    simp only [bind, Except.bind, pure, Except.pure]
    split
    · rfl
    · next hcount => rw [fieldsAt_eq name (Nat.le_of_not_lt hcount)]

/-! ## Which texts are lines -/

theorem splitName?_eq_some_iff (s name rest : List Char) :
    splitName? s = some (name, rest) ↔ ∃ before, Named s before name rest := by
  constructor
  · intro hs
    rcases named_or_reversed s with h | ⟨before, name', rest', h⟩ | ⟨before, middle, rest', h⟩
    · rw [splitName?_absent h] at hs
      cases hs
    · rw [h.splitName?] at hs
      cases hs
      exact ⟨before, h⟩
    · rw [h.splitName?] at hs
      cases hs
  · rintro ⟨before, h⟩
    exact h.splitName?

theorem parse?_isSome_iff (s : List Char) :
    (parse? s).isSome ↔ ∃ before name rest, Named s before name rest ∧
      fieldCount ≤ (words rest).length := by
  constructor
  · intro hs
    rw [parse?] at hs
    cases hname : splitName? s with
    | none =>
      rw [hname] at hs
      cases hs
    | some found =>
      obtain ⟨name, rest⟩ := found
      obtain ⟨before, h⟩ := (splitName?_eq_some_iff s name rest).mp hname
      refine ⟨before, name, rest, h, Nat.le_of_not_lt fun hcount => ?_⟩
      rw [hname] at hs
      simp [hcount] at hs
  · rintro ⟨before, name, rest, h, hcount⟩
    rw [parse?, h.splitName?]
    simp [Nat.not_lt.mpr hcount]

theorem toNat_line_residentPages (s : Status) :
    (s.line.residentPages.toNat : Int) = max s.residentPages.toInt 0 := by
  have hlt := s.residentPages.toInt_lt
  rw [show s.line.residentPages = UInt64.ofNat s.residentPages.toInt.toNat from rfl,
    UInt64.toNat_ofNat']
  omega

/-- A written line is read back, whatever its name is, with pages below zero as none. A reader by
places and numbers reads any text and fails at none: it gets what `parse?` does, which is a line
where the first opening parenthesis stands before the last closing one and fields enough, cut at
blanks, come after that. -/
theorem reads_what_is_written :
    (∀ s : Status, parse? s.text = some s.line ∧
      (s.line.residentPages.toNat : Int) = max s.residentPages.toInt 0) ∧
    ∀ text : List Char, parseAt text = .ok (parse? text) ∧
      ((parse? text).isSome ↔ ∃ before name rest,
        text = before ++ '(' :: (name ++ ')' :: rest) ∧ '(' ∉ before ∧ ')' ∉ rest ∧
        22 ≤ ((rest.splitOnP isBlank).filter (· ≠ [])).length) := by
  refine ⟨fun s => ⟨parse?_text s, toNat_line_residentPages s⟩, fun text => ⟨parseAt_eq text, ?_⟩⟩
  rw [parse?_isSome_iff]
  constructor
  · rintro ⟨before, name, rest, ⟨htext, hbefore, hrest⟩, hcount⟩
    rw [Text.words_eq] at hcount
    exact ⟨before, name, rest, htext, hbefore, hrest, hcount⟩
  · rintro ⟨before, name, rest, htext, hbefore, hrest, hcount⟩
    rw [← Text.words_eq] at hcount
    exact ⟨before, name, rest, ⟨htext, hbefore, hrest⟩, hcount⟩

end Overseer.StatLine
