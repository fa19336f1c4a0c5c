import Overseer.Monitor

/-! The search of descendants as plain recursion: a process is read, then its children are
searched in turn, and one set of ids met is handed from each to the next. -/

namespace Overseer.Monitor

/-- The ids met so far, and the samples. -/
structure Met where
  visited : PidSet
  samples : CpuSamples

/-- The later of two points of a search has met at least as many ids. -/
abbrev Met.After (m : Met) := { n : Met // n.visited.unmarked ≤ m.visited.unmarked }

/-- The trees under those of some processes that have not been met, and what has been met
after that. A process that cannot be read is a leaf. -/
def depthFirst (src : Source) (instant : Pid → Nat) (m : Met) :
    List Pid → Except Overflow (List ProcessTree × m.After)
  | [] => .ok ([], ⟨m, Nat.le_refl _⟩)
  | pid :: rest =>
    if h : pid ∈ m.visited then depthFirst src instant m rest
    else
      match snapshot src instant m.samples pid with
      | .error e => .error e
      | .ok (info, samples) =>
        have first := PidSet.unmarked_insert_lt m.visited pid h
        match depthFirst src instant ⟨m.visited.insert pid, samples⟩
            (if info.isValid then src.children pid else []) with
        | .error e => .error e
        | .ok (below, ⟨m₁, h₁⟩) =>
          match depthFirst src instant m₁ rest with
          | .error e => .error e
          | .ok (beside, ⟨m₂, h₂⟩) =>
            .ok (.node info below :: beside,
              ⟨m₂, Nat.le_trans h₂ (Nat.le_trans h₁ (Nat.le_of_lt first))⟩)
termination_by pids => (m.visited.unmarked, pids.length)
decreasing_by
  · exact Prod.Lex.right _ (by simp)
  · exact Prod.Lex.left _ _ first
  · exact Prod.Lex.left _ _ (Nat.lt_of_le_of_lt h₁ first)

end Overseer.Monitor
