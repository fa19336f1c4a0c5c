import Mathlib.Data.List.GetD
import Overseer.Proofs.Text.Fields
import Overseer.Proofs.Text.Offsets
import Overseer.Source.Stat

/-! The status line of a process, written out and read back. `parse?_text`: whatever the name is,
and whatever stands in the other fields, the line tells what was written. -/

namespace Overseer

open Text (isBlank)

/-- Text of a field: it has no blanks and cannot be taken for the end of a name. -/
def Field := { s : List Char // s ≠ [] ∧ ∀ c ∈ s, isBlank c = false ∧ c ≠ ')' }

namespace Field

theorem of_digits {n : Nat} {c : Char} (h : c ∈ Nat.toDigits 10 n) :
    isBlank c = false ∧ c ≠ ')' := by
  have hdigit := Text.isDigit_of_mem_toDigits h
  refine ⟨Text.isBlank_of_isDigit hdigit, ?_⟩
  rintro rfl
  cases hdigit

def natural (n : Nat) : Field := ⟨Nat.toDigits 10 n, Nat.toDigits_ne_nil, fun _ => of_digits⟩

def integer (i : Int) : Field := ⟨Text.integer i, by
  unfold Text.integer
  split
  · refine ⟨List.cons_ne_nil _ _, fun c hc => ?_⟩
    rcases List.mem_cons.mp hc with rfl | hc
    · decide
    · exact of_digits hc
  · exact ⟨Nat.toDigits_ne_nil, fun _ => of_digits⟩⟩

def letter (c : Char) (h : isBlank c = false ∧ c ≠ ')') : Field :=
  ⟨[c], List.cons_ne_nil _ _, fun _ hd => List.mem_singleton.mp hd ▸ h⟩

end Field

/-- What a status line is written from. The name may be any text. -/
structure Status where
  pid : UInt32
  name : List Char
  state : { c : Char // isBlank c = false ∧ c ≠ ')' }
  parent : UInt32
  /-- From the process group to the faults of ended children. -/
  beforeTicks : Vector Field 9
  userTicks : UInt64
  systemTicks : UInt64
  /-- From the ticks of ended children to the nice value. -/
  afterTicks : Vector Field 4
  threads : UInt32
  timer : Field
  startTicks : UInt64
  virtualBytes : UInt64
  residentPages : Int64
  more : List Field
  ending : { s : List Char // ∀ c ∈ s, isBlank c = true }

namespace Status

variable (s : Status)

/-- The fields from the number of threads on. -/
def last : List Field :=
  .natural s.threads.toNat :: s.timer :: .natural s.startTicks.toNat ::
    .natural s.virtualBytes.toNat :: .integer s.residentPages.toInt :: s.more

/-- The fields from the user time on. -/
def late : List Field :=
  .natural s.userTicks.toNat :: .natural s.systemTicks.toNat :: (s.afterTicks.toList ++ s.last)

def fields : List (List Char) :=
  (.letter s.state.1 s.state.2 :: .natural s.parent.toNat ::
    (s.beforeTicks.toList ++ s.late)).map (·.1)

/-- The line. -/
def text : List Char :=
  Nat.toDigits 10 s.pid.toNat ++ [' '] ++
    '(' :: (s.name ++ ')' :: (s.fields.flatMap (' ' :: ·) ++ s.ending.1))

/-- What a reader gets of it. -/
def line : StatLine where
  name := s.name
  state := s.state.1
  parent := s.parent
  userTicks := s.userTicks
  systemTicks := s.systemTicks
  threads := s.threads
  startTicks := s.startTicks
  virtualBytes := s.virtualBytes
  residentPages := UInt64.ofNat s.residentPages.toInt.toNat

end Status

namespace StatLine

/-- The name reaches from the first opening parenthesis to the last closing one. -/
theorem splitName?_between {before name rest : List Char} (hbefore : '(' ∉ before)
    (hrest : ')' ∉ rest) :
    splitName? (before ++ '(' :: (name ++ ')' :: rest)) = some (name, rest) := by
  have hsplit : before ++ '(' :: (name ++ ')' :: rest) =
      (before ++ '(' :: name) ++ ')' :: rest := by simp
  have hfirst : (before ++ '(' :: (name ++ ')' :: rest)).findIdx? (· == '(') =
      some before.length := Text.findIdx?_first hbefore _
  have hlast : (before ++ '(' :: (name ++ ')' :: rest)).reverse.findIdx? (· == ')') =
      some rest.length := by
    rw [hsplit]
    exact Text.findIdx?_last hrest _
  have hplace : (before ++ '(' :: (name ++ ')' :: rest)).length - 1 - rest.length =
      (before ++ '(' :: name).length := by
    simp only [List.length_append, List.length_cons]
    omega
  have hlt : before.length < (before ++ '(' :: name).length := by simp
  have hname : ((before ++ '(' :: (name ++ ')' :: rest)).take
      (before ++ '(' :: name).length).drop (before.length + 1) = name := by
    rw [hsplit, List.take_left, ← List.drop_drop, List.drop_left]
    rfl
  have htail : (before ++ '(' :: (name ++ ')' :: rest)).drop
      ((before ++ '(' :: name).length + 1) = rest := by
    rw [hsplit, ← List.drop_drop, List.drop_left]
    rfl
  unfold splitName?
  rw [hfirst, hlast]
  dsimp only
  rw [hplace, if_pos hlt, hname, htail]

theorem words_text (s : Status) :
    Text.words (s.fields.flatMap (' ' :: ·) ++ s.ending.1) = s.fields := by
  refine Text.words_fields (fun f hf => ?_) s.ending.2
  obtain ⟨field, -, rfl⟩ := List.mem_map.mp hf
  exact ⟨field.2.1, fun c hc => (field.2.2 c hc).1⟩

theorem getD_after {n : Nat} (skipped : Vector Field n) (rest : List Field) (i : Nat) :
    ((skipped.toList ++ rest).map (·.1)).getD (n + i) [] = (rest.map (·.1)).getD i [] := by
  have hlength : (skipped.toList.map (·.1)).length = n := by
    rw [List.length_map, Vector.length_toList]
  rw [List.map_append, List.getD_append_right _ _ _ _ (by omega), hlength, Nat.add_sub_cancel_left]

theorem ofFields_fields (s : Status) : ofFields s.name s.fields = s.line := by
  have hlate : ∀ i, s.fields.getD (11 + i) [] = (s.late.map (·.1)).getD i [] := by
    intro i
    rw [show 11 + i = (9 + i) + 2 by omega]
    exact getD_after s.beforeTicks s.late i
  have hlast : ∀ i, s.fields.getD (17 + i) [] = (s.last.map (·.1)).getD i [] := by
    intro i
    rw [show 17 + i = 11 + ((4 + i) + 2) by omega, hlate]
    exact getD_after s.afterTicks s.last i
  have huser : s.fields.getD 11 [] = Nat.toDigits 10 s.userTicks.toNat := hlate 0
  have hsystem : s.fields.getD 12 [] = Nat.toDigits 10 s.systemTicks.toNat := hlate 1
  have hthreads : s.fields.getD 17 [] = Nat.toDigits 10 s.threads.toNat := hlast 0
  have hstart : s.fields.getD 19 [] = Nat.toDigits 10 s.startTicks.toNat := hlast 2
  have hvirtual : s.fields.getD 20 [] = Nat.toDigits 10 s.virtualBytes.toNat := hlast 3
  have hresident : s.fields.getD 21 [] = Text.integer s.residentPages.toInt := hlast 4
  have hstate : s.fields.getD 0 [] = [s.state.1] := rfl
  have hparent : s.fields.getD 1 [] = Nat.toDigits 10 s.parent.toNat := rfl
  unfold ofFields
  simp only [huser, hsystem, hthreads, hstart, hvirtual, hresident, hstate, hparent,
    Text.unsigned32?_toDigits, Text.unsigned64?_toDigits, Text.signed?_integer]
  rfl

/-- A line tells what it was written from. -/
theorem parse?_text (s : Status) : parse? s.text = some s.line := by
  have hbefore : '(' ∉ Nat.toDigits 10 s.pid.toNat ++ [' '] := by
    intro hmem
    rcases List.mem_append.mp hmem with hmem | hmem
    · exact absurd (Text.isDigit_of_mem_toDigits hmem) (by decide)
    · exact absurd hmem (by decide)
  have hrest : ')' ∉ s.fields.flatMap (' ' :: ·) ++ s.ending.1 := by
    intro hmem
    rcases List.mem_append.mp hmem with hmem | hmem
    · obtain ⟨f, hf, hmem⟩ := List.mem_flatMap.mp hmem
      obtain ⟨field, -, rfl⟩ := List.mem_map.mp hf
      rcases List.mem_cons.mp hmem with hblank | hmem
      · cases hblank
      · exact (field.2.2 _ hmem).2 rfl
    · exact absurd (s.ending.2 _ hmem) (by decide)
  have hlength : ¬ s.fields.length < fieldCount := by
    simp only [Status.fields, Status.late, Status.last, fieldCount, List.length_map,
      List.length_append, List.length_cons, Vector.length_toList]
    omega
  rw [parse?, Status.text, splitName?_between hbefore hrest]
  dsimp only
  rw [words_text, if_neg hlength, ofFields_fields]

end StatLine

end Overseer
