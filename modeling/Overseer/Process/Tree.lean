import Overseer.Process.Snapshot

/-! Trees of processes, walked with a stack: the node on top is given out, and its
children take its place. -/

namespace Overseer

inductive ProcessTree where
  | node (info : Snapshot) (children : List ProcessTree)

namespace ProcessTree

def info : ProcessTree → Snapshot
  | .node s _ => s

def children : ProcessTree → List ProcessTree
  | .node _ cs => cs

def leaf (s : Snapshot) : ProcessTree := .node s []

mutual
/-- The number of nodes. -/
def count : ProcessTree → Nat
  | .node _ cs => countAll cs + 1
def countAll : List ProcessTree → Nat
  | [] => 0
  | t :: r => count t + countAll r
end

theorem countAll_append (xs ys : List ProcessTree) :
    countAll (xs ++ ys) = countAll xs + countAll ys := by
  induction xs with
  | nil => simp [countAll]
  | cons t r ih => simp [countAll, ih]; omega

theorem countAll_children_lt (t : ProcessTree) (rest : List ProcessTree) :
    countAll (t.children ++ rest) < countAll (t :: rest) := by
  cases t
  simp [countAll_append, countAll, count, children]

/-- All trees below those on the stack, each node before its children. -/
def walk : List ProcessTree → List ProcessTree
  | [] => []
  | t :: rest => t :: walk (t.children ++ rest)
termination_by stack => countAll stack
decreasing_by exact countAll_children_lt t rest

/-- The same with the depth of each node. -/
def walkDepths : List (ProcessTree × Nat) → List (ProcessTree × Nat)
  | [] => []
  | (t, d) :: rest => (t, d) :: walkDepths (t.children.map (·, d + 1) ++ rest)
termination_by stack => countAll (stack.map (·.1))
decreasing_by
  have h := countAll_children_lt t (rest.map (·.1))
  simpa [Function.comp_def] using h

mutual
/-- A node, then all that is below each of its children in turn. -/
def preorder : ProcessTree → List ProcessTree
  | .node s cs => .node s cs :: preorderAll cs
def preorderAll : List ProcessTree → List ProcessTree
  | [] => []
  | t :: r => preorder t ++ preorderAll r
end

mutual
/-- The same from a depth on, each node with its own depth. -/
def preorderFrom (depth : Nat) : ProcessTree → List (ProcessTree × Nat)
  | .node s cs => (.node s cs, depth) :: preorderAllFrom (depth + 1) cs
def preorderAllFrom (depth : Nat) : List ProcessTree → List (ProcessTree × Nat)
  | [] => []
  | t :: r => preorderFrom depth t ++ preorderAllFrom depth r
end

theorem preorderAll_append (xs ys : List ProcessTree) :
    preorderAll (xs ++ ys) = preorderAll xs ++ preorderAll ys := by
  induction xs with
  | nil => simp [preorderAll]
  | cons t r ih => simp [preorderAll, ih]

theorem preorderAll_cons (t : ProcessTree) (rest : List ProcessTree) :
    preorderAll (t :: rest) = t :: preorderAll (t.children ++ rest) := by
  cases t
  simp [preorderAll, preorder, children, preorderAll_append]

/-- The stack holds what is still to come, in order. -/
theorem walk_eq_preorderAll (stack : List ProcessTree) : walk stack = preorderAll stack := by
  fun_induction walk stack with
  | case1 => simp [preorderAll]
  | case2 t rest ih => rw [preorderAll_cons, ih]

theorem flatMap_preorderFrom (d : Nat) (ts : List ProcessTree) :
    (ts.map (·, d)).flatMap (fun (t, d) => preorderFrom d t) = preorderAllFrom d ts := by
  induction ts with
  | nil => simp [preorderAllFrom]
  | cons t r ih => simp [preorderAllFrom, ← ih]

/-- The same with depths: each node on the stack brings its own. -/
theorem walkDepths_eq_flatMap (stack : List (ProcessTree × Nat)) :
    walkDepths stack = stack.flatMap fun (t, d) => preorderFrom d t := by
  fun_induction walkDepths stack with
  | case1 => rfl
  | case2 t d rest ih =>
    rw [ih, List.flatMap_append, flatMap_preorderFrom]
    cases t
    simp [preorderFrom, children]

/-- This node and every one below, a parent before its children. -/
def nodes (t : ProcessTree) : List ProcessTree := walk [t]

def nodesWithDepth (t : ProcessTree) : List (ProcessTree × Nat) := walkDepths [(t, 0)]

def length (t : ProcessTree) : Nat := t.nodes.length

def infos (t : ProcessTree) : List Snapshot := t.nodes.map info

/-- The first node with an id. -/
def find? (t : ProcessTree) (pid : Pid) : Option ProcessTree :=
  t.nodes.find? (·.info.pid == pid)

mutual
def toJson : ProcessTree → Json
  | .node s cs => .obj (s.nodeMembers ++ [("children", .arr (allToJson cs))])
def allToJson : List ProcessTree → List Json
  | [] => []
  | t :: r => toJson t :: allToJson r
end

end ProcessTree

end Overseer
