import Mathlib.Algebra.GroupWithZero.Nat
import Overseer.Proofs.Display.Drawing

/-! Reports as lines. A process takes one line and one more for each newline in its name or in the
part of its command line that is shown, `breaks` (`count_newline_line`); nothing else of it can hold
one. `rendered_lines`: a report has a line for each process, and no others, just if there are no
such newlines in it. -/

namespace Overseer.Display

/-! ## What holds no newline -/

theorem newline_not_mem_toString (n : Nat) : '\n' ∉ (toString n).toList := by
  have hdigits : (toString n).toList = Nat.toDigits 10 n := Nat.toList_repr
  rw [hdigits]
  intro h
  exact absurd (Nat.isDigit_of_mem_toDigits (by decide) (by decide) h) (by decide)

theorem newline_not_mem_placed (n places : Nat) : '\n' ∉ (Decimal.placed n places).toList := by
  have hzeros : ∀ k, '\n' ∉ ("".pushn '0' k).toList := by
    intro k h
    rw [Text.toList_pushn] at h
    exact absurd (List.eq_of_mem_replicate h) (by decide)
  rw [Decimal.placed]
  split
  · exact newline_not_mem_toString n
  · simp only [String.toList_append, List.mem_append, not_or]
    exact ⟨⟨⟨newline_not_mem_toString _, by decide⟩, hzeros _⟩, newline_not_mem_toString _⟩

theorem newline_not_mem_fixed (places : Nat) (x : Float) :
    '\n' ∉ (Decimal.fixed places x).toList := by
  rw [Decimal.fixed]
  cases Decimal.Binary.ofFloat x with
  | nan =>
    rw [Decimal.fixedBinary]
    decide
  | infinite negative =>
    rw [Decimal.fixedBinary]
    cases negative <;> decide
  | finite negative m e =>
    rw [Decimal.fixedBinary, String.toList_append, List.mem_append, not_or]
    exact ⟨by cases negative <;> decide, newline_not_mem_placed _ places⟩

theorem newline_not_mem_size (bytes : UInt64) : '\n' ∉ (size bytes).toList := by
  have hunit : ∀ {number unit : String}, '\n' ∉ number.toList → '\n' ∉ unit.toList →
      '\n' ∉ (number ++ unit).toList := by
    intro number unit hnumber hunit
    rw [String.toList_append, List.mem_append, not_or]
    exact ⟨hnumber, hunit⟩
  rw [size]
  split
  · exact hunit (newline_not_mem_fixed 1 _) (by decide)
  · split
    · exact hunit (newline_not_mem_fixed 1 _) (by decide)
    · split
      · exact hunit (newline_not_mem_fixed 0 _) (by decide)
      · exact hunit (newline_not_mem_toString _) (by decide)

theorem newline_not_mem_state (state : RunState) : '\n' ∉ state.text.toList := by
  cases state <;> decide

/-! ## Newlines of a process -/

/-- The newlines of a process: those in its name and in what is shown of its command line. -/
def breaks (s : Snapshot) : Nat :=
  s.name.toList.count '\n' + (truncate s.command.toList commandColumns).count '\n'

theorem count_newline_commandPart (command : String) :
    (commandPart command).toList.count '\n' =
      (truncate command.toList commandColumns).count '\n' := by
  rw [commandPart]
  split
  · next h => subst h; decide
  · rw [String.toList_append, List.count_append, String.toList_ofList]
    simp

theorem count_newline_line (s : Snapshot) : (line s).toList.count '\n' = breaks s := by
  have hpid := List.count_eq_zero_of_not_mem (newline_not_mem_toString s.pid.toNat)
  have hstate := List.count_eq_zero_of_not_mem (newline_not_mem_state s.state)
  have hcpu := List.count_eq_zero_of_not_mem (newline_not_mem_fixed 1 s.cpuPercent)
  have hsize := List.count_eq_zero_of_not_mem (newline_not_mem_size s.residentBytes)
  have hthreads := List.count_eq_zero_of_not_mem (newline_not_mem_toString s.threads.toNat)
  simp only [line, String.toList_append, List.count_append, hpid, hstate, hcpu, hsize, hthreads,
    count_newline_commandPart, breaks]
  simp

theorem count_newline_row (p : ProcessTree × Nat) :
    (row p).toList.count '\n' = breaks p.1.info := by
  have hindent : (indent p.2).toList.count '\n' = 0 := by
    rw [toList_indent, List.count_replicate]
    simp
  rw [row, String.toList_append, List.count_append, hindent, count_newline_line, Nat.zero_add]

/-! ## Lines of a text -/

theorem toList_written_cons (r : String) (rows : List String) :
    (written (r :: rows)).toList = r.toList ++ '\n' :: (written rows).toList := by
  rw [written_cons, String.toList_append, String.toList_append, List.append_assoc]
  rfl

/-- What is written row by row splits at its newlines into the pieces of each row. -/
theorem splitOn_written (rows : List String) :
    (written rows).toList.splitOn '\n' = rows.flatMap (·.toList.splitOn '\n') ++ [[]] := by
  induction rows with
  | nil => rfl
  | cons r rows ih =>
    rw [toList_written_cons, List.splitOn_append_cons_self, ih, List.flatMap_cons,
      List.append_assoc]

theorem count_newline_written (rows : List String) :
    (written rows).toList.count '\n' =
      rows.length + (rows.map fun r => r.toList.count '\n').sum := by
  induction rows with
  | nil => rfl
  | cons r rows ih =>
    rw [toList_written_cons, List.count_append, List.count_cons_self, ih, List.map_cons,
      List.sum_cons, List.length_cons]
    omega

/-- A text consists of these lines, each with a newline after it and none in it. -/
def Consists (text : String) (lines : List String) : Prop :=
  text.toList.splitOn '\n' = lines.map String.toList ++ [[]]

instance (text : String) (lines : List String) : Decidable (Consists text lines) :=
  inferInstanceAs (Decidable (_ = _))

/-- The rows are the lines just if none has a newline in it. -/
theorem consists_written_iff (rows : List String) :
    Consists (written rows) rows ↔ ∀ r ∈ rows, '\n' ∉ r.toList := by
  rw [Consists]
  induction rows with
  | nil => simp [written]
  | cons r rows ih =>
    rw [toList_written_cons, List.map_cons, List.cons_append, List.forall_mem_cons]
    by_cases h : '\n' ∈ r.toList
    · -- The first line ends within the row.
      obtain ⟨first, rest, hr, hfirst⟩ := List.eq_append_cons_of_mem h
      simp only [h, not_true_eq_false, false_and, iff_false]
      intro he
      rw [hr, List.append_assoc, List.cons_append,
        List.splitOn_append_cons_self_of_not_mem hfirst] at he
      have := congrArg List.length (List.cons.inj he).1
      simp at this
    · rw [List.splitOn_append_cons_self_of_not_mem h, List.cons.injEq, ih]
      simp [h]

/-! ## Reports -/

/-- Rows with the newlines of a process each. -/
theorem written_processes {α : Type} (f : α → String) (process : α → Snapshot)
    (hf : ∀ x, (f x).toList.count '\n' = breaks (process x)) (xs : List α) :
    (written (xs.map f)).toList.splitOn '\n' =
        (xs.flatMap fun x => (f x).toList.splitOn '\n') ++ [[]] ∧
      (written (xs.map f)).toList.count '\n' =
        xs.length + ((xs.map process).map breaks).sum ∧
      (Consists (written (xs.map f)) (xs.map f) ↔ ∀ s ∈ xs.map process, breaks s = 0) := by
  refine ⟨?_, ?_, ?_⟩
  · rw [splitOn_written, List.flatMap_map]
  · rw [count_newline_written, List.length_map, List.map_map, List.map_map]
    congr 2
    exact List.map_congr_left fun x _ => hf x
  · rw [consists_written_iff, List.forall_mem_map, List.forall_mem_map]
    refine forall_congr' fun x => forall_congr' fun _ => ?_
    rw [← hf x, List.count_eq_zero]

/-- The lines of a report are those of its processes one after the other. Each process has one more
than there are newlines in its name and in what is shown of its command line. There is one line for
each process, namely its indentation and its line in a tree and its line alone in a list, just if
there are no such newlines. -/
theorem rendered_lines (t : ProcessTree) (infos : List Snapshot) :
    ((tree t).toList.splitOn '\n' =
        (t.nodesWithDepth.flatMap fun p => (row p).toList.splitOn '\n') ++ [[]] ∧
      (tree t).toList.count '\n' = t.length + (t.infos.map breaks).sum ∧
      (Consists (tree t) (t.nodesWithDepth.map row) ↔ ∀ s ∈ t.infos, breaks s = 0)) ∧
    (family infos).toList.splitOn '\n' =
        (infos.flatMap fun s => (line s).toList.splitOn '\n') ++ [[]] ∧
      (family infos).toList.count '\n' = infos.length + (infos.map breaks).sum ∧
      (Consists (family infos) (infos.map line) ↔ ∀ s ∈ infos, breaks s = 0) := by
  constructor
  · have hinfos : t.nodesWithDepth.map (·.1.info) = t.infos := by
      rw [ProcessTree.infos, ← ProcessTree.map_fst_nodesWithDepth, List.map_map]
      rfl
    have hlength : t.nodesWithDepth.length = t.length := by
      rw [ProcessTree.length, ← ProcessTree.map_fst_nodesWithDepth, List.length_map]
    have h := written_processes row (·.1.info) count_newline_row t.nodesWithDepth
    rw [hinfos, hlength, ← tree_eq_rows] at h
    exact h
  · have h := written_processes line id count_newline_line infos
    rw [List.map_id, ← family_eq_lines] at h
    exact h

/-! ## A line that no process has -/

def shell : Snapshot := { pid := 1, name := "sh", command := "sh", state := .running, threads := 1 }

/-- The same process with an argument that reads like the line of another one. -/
def forger : Snapshot :=
  { shell with command := "sh\n2 init [running] cpu 0.0% rss 0 B threads 1" }

def forged : Snapshot := { pid := 2, name := "init", state := .running, threads := 1 }

/-- One process is reported as two. -/
theorem report_forged :
    tree (.leaf forger) = family [shell, forged] ∧ family [forger] = family [shell, forged] ∧
      ¬ Consists (tree (.leaf forger)) [line forger] := by
  decide +kernel

end Overseer.Display
