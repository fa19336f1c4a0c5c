import Overseer.FileTree

/-! What sets a tree apart from an earlier one, as steps that turn the earlier one into it. -/

namespace Overseer.FileTree

/-- A step on the path of a node. -/
inductive Change where
  | remove (path : String)
  | makeDir (path : String)
  | write (path : String) (bytes : ByteArray)

/-- A path from the root. -/
def absolute (l : Location) : String := "/" ++ "/".intercalate l

/-- The bytes of the file at a location, if one is there. -/
def fileAt? (t : FileTree) (l : Location) : Option ByteArray :=
  match t.get? l with
  | some (.file id) => some (t.bytes id)
  | _ => none

/-- Files that are gone, from the last on. -/
def removals (before after : FileTree) : List Change :=
  before.root.descendants.reverse.filterMap fun (l, _) =>
    match before.fileAt? l, after.fileAt? l with
    | some _, none => some (.remove (absolute l))
    | _, _ => none

/-- Directories that are new, and files that are new or hold other bytes. A directory comes
before what it holds. -/
def additions (before after : FileTree) : List Change :=
  after.root.descendants.filterMap fun (l, n) =>
    match n with
    | .dir _ => if (before.get? l).any Node.isDir then none else some (.makeDir (absolute l))
    | .file id =>
      if (before.fileAt? l).any (·.data == (after.bytes id).data) then none
      else some (.write (absolute l) (after.bytes id))
    | .link _ => none

def changes (before after : FileTree) : List Change :=
  removals before after ++ additions before after

end Overseer.FileTree
