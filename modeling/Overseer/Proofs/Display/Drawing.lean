import Overseer.Display.Report
import Overseer.Proofs.Process.Traversal
import Overseer.Proofs.Text.Ascii

/-! Trees as text. A tree is written row by row (`tree_eq_rows`), which is the drawing that plain
recursion makes (`tree_eq_drawing`); `walks_recursive` is all that the walks have in common with
recursion. -/

namespace Overseer.Display

open ProcessTree (walkDepths next? after)

/-! ## Rows -/

/-- Texts one below the other, each followed by a newline. -/
def written (rows : List String) : String := String.join (rows.map (· ++ "\n"))

/-- A process of a tree on its row. -/
def row (p : ProcessTree × Nat) : String := indent p.2 ++ line p.1.info

/-- A row without the spaces in front. -/
def flushRow (p : ProcessTree × Nat) : String := String.ofList ((row p).toList.drop (2 * p.2))

theorem written_cons (r : String) (rows : List String) :
    written (r :: rows) = r ++ "\n" ++ written rows := by
  rw [written, List.map_cons, String.join_cons, written]

theorem foldl_written {α : Type} (f : α → String) (xs : List α) (out : String) :
    xs.foldl (fun out x => out ++ f x ++ "\n") out = out ++ written (xs.map f) := by
  induction xs generalizing out with
  | nil => simp [written]
  | cons x xs ih =>
    rw [List.foldl_cons, ih, List.map_cons, written_cons, String.append_assoc, String.append_assoc,
      String.append_assoc]

theorem toList_indent (depth : Nat) : (indent depth).toList = List.replicate (2 * depth) ' ' :=
  Text.toList_pushn ' ' (2 * depth)

theorem flushRow_eq (p : ProcessTree × Nat) : flushRow p = line p.1.info := by
  have hlength : (indent p.2).toList.length = 2 * p.2 := by
    rw [toList_indent, List.length_replicate]
  rw [flushRow, row, String.toList_append, ← hlength, List.drop_left, String.ofList_toList]

theorem tree_eq_rows (t : ProcessTree) : tree t = written (t.nodesWithDepth.map row) := by
  have h := foldl_written row t.nodesWithDepth ""
  simpa [tree, row, String.append_assoc] using h

theorem family_eq_lines (infos : List Snapshot) : family infos = written (infos.map line) := by
  have h := foldl_written line infos ""
  simpa [family] using h

/-- The processes of a tree, parents first, take its rows without the spaces in front. -/
theorem family_eq_flushRows (t : ProcessTree) :
    family t.infos = written (t.nodesWithDepth.map flushRow) := by
  rw [family_eq_lines, ProcessTree.infos, ← ProcessTree.map_fst_nodesWithDepth, List.map_map,
    List.map_map]
  exact congrArg written (List.map_congr_left fun p _ => (flushRow_eq p).symm)

/-! ## Drawing by recursion -/

mutual
/-- A process at a depth, and below it its children one deeper. -/
def drawing (depth : Nat) : ProcessTree → String
  | .node s cs => indent depth ++ line s ++ "\n" ++ drawingAll (depth + 1) cs
def drawingAll (depth : Nat) : List ProcessTree → String
  | [] => ""
  | t :: rest => drawing depth t ++ drawingAll depth rest
end

theorem drawing_eq (depth : Nat) (t : ProcessTree) :
    drawing depth t = row (t, depth) ++ "\n" ++ drawingAll (depth + 1) t.children := by
  cases t
  rfl

/-- The drawings of trees that stand at their depths, one below the other. -/
def drawings (stack : List (ProcessTree × Nat)) : String :=
  String.join (stack.map fun p => drawing p.2 p.1)

theorem drawings_cons (p : ProcessTree × Nat) (stack : List (ProcessTree × Nat)) :
    drawings (p :: stack) = drawing p.2 p.1 ++ drawings stack := by
  rw [drawings, List.map_cons, String.join_cons, drawings]

theorem drawings_append (stack stack' : List (ProcessTree × Nat)) :
    drawings (stack ++ stack') = drawings stack ++ drawings stack' := by
  rw [drawings, List.map_append, String.join_append, drawings, drawings]

theorem drawings_siblings (depth : Nat) (ts : List ProcessTree) :
    drawings (ts.map (·, depth)) = drawingAll depth ts := by
  induction ts with
  | nil => rfl
  | cons t ts ih => rw [List.map_cons, drawings_cons, ih, drawingAll]

/-- The rows still to come draw what is on the stack. -/
theorem written_walkDepths (stack : List (ProcessTree × Nat)) :
    written ((walkDepths stack).map row) = drawings stack := by
  fun_induction walkDepths stack with
  | case1 => rfl
  | case2 t d rest ih =>
    rw [List.map_cons, written_cons, ih, drawings_append, drawings_siblings, drawings_cons,
      drawing_eq, ← String.append_assoc]

theorem tree_eq_drawing (t : ProcessTree) : tree t = drawing 0 t := by
  rw [tree_eq_rows, ProcessTree.nodesWithDepth, written_walkDepths]
  simp [drawings]

/-- The walks with a stack do what plain recursion does. Nodes come one by one in the order of
`preorder`, and then no more; counting and searching follow that order; the walk with depths takes
the same nodes, each with the number of steps down to it; and a tree is drawn as recursion draws it,
of which the lines of its processes are left without the spaces in front. -/
theorem walks_recursive (t : ProcessTree) :
    (∀ k, (next? (after k [t])).map (·.1) = t.preorder[k]?) ∧
    t.nodes = t.preorder ∧
    t.length = t.count ∧
    (∀ pid, t.find? pid = t.preorder.find? (·.info.pid == pid)) ∧
    t.nodesWithDepth = t.preorderFrom 0 ∧
    t.nodesWithDepth.map (·.1) = t.nodes ∧
    (∀ n d, (n, d) ∈ t.nodesWithDepth ↔ t.Below d n) ∧
    tree t = drawing 0 t ∧
    tree t = written ((t.preorderFrom 0).map row) ∧
    family t.infos = written ((t.preorderFrom 0).map flushRow) := by
  have hnodes := t.nodes_eq_preorder
  have hdepths := t.nodesWithDepth_eq_preorderFrom
  refine ⟨t.next?_after, hnodes, t.length_eq_count, fun pid => ?_, hdepths,
    t.map_fst_nodesWithDepth, fun n d => ProcessTree.mem_nodesWithDepth_iff, tree_eq_drawing t,
    ?_, ?_⟩
  · rw [ProcessTree.find?, hnodes]
  · rw [tree_eq_rows, hdepths]
  · rw [family_eq_flushRows, hdepths]

end Overseer.Display
