import Overseer.Process.Tree

/-! The walks over a tree with a stack, and plain recursion. `next?_after`: taken one by one, nodes
come in the order of `preorder`, and after the last there are no more. `mem_nodesWithDepth_iff`: the
depth that comes with a node is the number of steps down to it. -/

namespace Overseer.ProcessTree

/-! ## One node after the other -/

/-- The node on top of a stack, and the stack with its children in its place. -/
def next? : List ProcessTree → Option (ProcessTree × List ProcessTree)
  | [] => none
  | t :: rest => some (t, t.children ++ rest)

/-- The stack after so many nodes have been taken. -/
def after : Nat → List ProcessTree → List ProcessTree
  | 0, stack => stack
  | k + 1, stack =>
    match next? stack with
    | none => stack
    | some (_, stack') => after k stack'

/-- The walk takes nodes as long as there are any. -/
theorem next?_after_stack (k : Nat) (stack : List ProcessTree) :
    (next? (after k stack)).map (·.1) = (walk stack)[k]? := by
  induction k generalizing stack with
  | zero => cases stack <;> simp [after, next?, walk]
  | succ k ih =>
    cases stack with
    | nil => simp [after, next?, walk]
    | cons t rest =>
      rw [walk, List.getElem?_cons_succ]
      exact ih (t.children ++ rest)

theorem nodes_eq_preorder (t : ProcessTree) : t.nodes = t.preorder := by
  rw [nodes, walk_eq_preorderAll]
  simp [preorderAll]

theorem next?_after (t : ProcessTree) (k : Nat) :
    (next? (after k [t])).map (·.1) = t.preorder[k]? := by
  rw [next?_after_stack, ← nodes_eq_preorder, nodes]

/-! ## Counting -/

theorem length_walk (stack : List ProcessTree) : (walk stack).length = countAll stack := by
  fun_induction walk stack with
  | case1 => rfl
  | case2 t rest ih =>
    rw [List.length_cons, ih]
    cases t
    simp only [children, countAll_append, countAll, count]
    omega

theorem length_eq_count (t : ProcessTree) : t.length = t.count := by
  simp [length, nodes, length_walk, countAll]

/-! ## Depths -/

theorem nodesWithDepth_eq_preorderFrom (t : ProcessTree) :
    t.nodesWithDepth = t.preorderFrom 0 := by
  simp [nodesWithDepth, walkDepths_eq_flatMap]

/-- Both walks take the same nodes. -/
theorem map_fst_walkDepths (stack : List (ProcessTree × Nat)) :
    (walkDepths stack).map (·.1) = walk (stack.map (·.1)) := by
  fun_induction walkDepths stack with
  | case1 => simp [walk]
  | case2 t d rest ih => simpa [walk, Function.comp_def] using ih

theorem map_fst_nodesWithDepth (t : ProcessTree) : t.nodesWithDepth.map (·.1) = t.nodes := by
  simp [nodesWithDepth, nodes, map_fst_walkDepths]

/-- So many steps from parent to child lead down to a node. -/
inductive Below : ProcessTree → Nat → ProcessTree → Prop
  | here (t : ProcessTree) : Below t 0 t
  | down {t c n : ProcessTree} {d : Nat} (hc : c ∈ t.children) (h : Below c d n) :
      Below t (d + 1) n

theorem below_iff {t n : ProcessTree} {d : Nat} :
    Below t d n ↔ (d = 0 ∧ n = t) ∨ ∃ c ∈ t.children, ∃ e, d = e + 1 ∧ Below c e n := by
  constructor
  · intro h
    cases h with
    | here => exact Or.inl ⟨rfl, rfl⟩
    | down hc h => exact Or.inr ⟨_, hc, _, rfl, h⟩
  · rintro (⟨rfl, rfl⟩ | ⟨c, hc, e, rfl, h⟩)
    · exact .here n
    · exact .down hc h

/-- What is still to come stands below something on the stack, as deep as the two together say. -/
theorem mem_walkDepths_iff {n : ProcessTree} {d : Nat} {stack : List (ProcessTree × Nat)} :
    (n, d) ∈ walkDepths stack ↔ ∃ p ∈ stack, ∃ e, d = p.2 + e ∧ Below p.1 e n := by
  fun_induction walkDepths stack with
  | case1 => simp
  | case2 t d₀ rest ih =>
    simp only [List.mem_cons, ih, List.mem_append, List.mem_map, exists_eq_or_imp]
    rw [exists_congr fun e => and_congr_right fun _ => below_iff (t := t)]
    constructor
    · rintro (h | ⟨p, ⟨c, hc, rfl⟩ | hp, e, rfl, h⟩)
      · obtain ⟨rfl, rfl⟩ := Prod.mk.inj h
        exact Or.inl ⟨0, rfl, Or.inl ⟨rfl, rfl⟩⟩
      · exact Or.inl ⟨e + 1, by omega, Or.inr ⟨c, hc, e, rfl, h⟩⟩
      · exact Or.inr ⟨p, hp, e, rfl, h⟩
    · rintro (⟨e, rfl, ⟨rfl, rfl⟩ | ⟨c, hc, e, rfl, h⟩⟩ | ⟨p, hp, e, rfl, h⟩)
      · exact Or.inl rfl
      · exact Or.inr ⟨(c, d₀ + 1), Or.inl ⟨c, hc, rfl⟩, e, by omega, h⟩
      · exact Or.inr ⟨p, Or.inr hp, e, rfl, h⟩

theorem mem_nodesWithDepth_iff {t n : ProcessTree} {d : Nat} :
    (n, d) ∈ t.nodesWithDepth ↔ Below t d n := by
  simp [nodesWithDepth, mem_walkDepths_iff]

end Overseer.ProcessTree
