import Overseer.Path

/-! A tree of directories, symbolic links and files, with the file operations of this
library. A file is a number; its bytes stand beside the tree, so that a file stays
readable and writable through its number after its name is gone. -/

namespace Overseer

inductive FileError where
  | notFound
  | isDirectory
  | notDirectory
  | nameTooLong
  | alreadyExists
  | directoryNotEmpty
  | tooManyLinks
  | invalidInput
  deriving DecidableEq, Repr

/-- What a name in a directory stands for. -/
inductive Node where
  | file (id : Nat)
  | link (target : String)
  | dir (entries : List (String × Node))

/-- The names from the root down. -/
abbrev Location := List String

namespace Node

def entries : Node → List (String × Node)
  | .dir es => es
  | _ => []

def isDir : Node → Bool
  | .dir _ => true
  | _ => false

/-- The node at a location below this one, links not followed. -/
def get? : Location → Node → Option Node
  | [], n => some n
  | a :: r, n => (n.entries.lookup a).bind (get? r)

/-- Replaces, adds or removes the entry `name`; a new one comes last. -/
def alterEntry (name : String) (f : Option Node → Option Node) :
    List (String × Node) → List (String × Node)
  | [] => ((f none).map fun n => (name, n)).toList
  | (a, n) :: r =>
    if a = name then ((f (some n)).map fun n' => (name, n')).toList ++ r
    else (a, n) :: alterEntry name f r

/-- Changes the entry at a location whose directories exist. -/
def alter : Location → (Option Node → Option Node) → Node → Node
  | [], f, n => (f (some n)).getD n
  | [a], f, .dir es => .dir (alterEntry a f es)
  | a :: b :: r, f, .dir es => .dir (alterEntry a (Option.map (alter (b :: r) f)) es)
  | _, _, n => n

mutual
/-- Every node below this one with its location, a directory before what it holds. -/
def descendants : Node → List (Location × Node)
  | .dir es => entryDescendants es
  | _ => []
def entryDescendants : List (String × Node) → List (Location × Node)
  | [] => []
  | (a, n) :: r =>
    ([a], n) :: (descendants n).map (fun (l, m) => (a :: l, m)) ++ entryDescendants r
end

end Node

structure FileTree where
  root : Node
  contents : Array ByteArray
  /-- The directory that relative paths start from. -/
  working : Location

namespace FileTree

/-- An empty working directory. -/
def empty : FileTree := ⟨.dir [("work", .dir [])], #[], ["work"]⟩

def get? (t : FileTree) (l : Location) : Option Node := t.root.get? l

def bytes (t : FileTree) (id : Nat) : ByteArray := t.contents.getD id .empty

def size (t : FileTree) (id : Nat) : Nat := (t.bytes id).size

/-- Where a path leads: to a node, or to a name that its directory does not have. -/
inductive Target where
  | found (location : Location) (node : Node)
  | absent (directory : Location) (name : String)

/-- As many links as one path may pass through. -/
def maxLinks : Nat := 40

def maxNameBytes : Nat := 255

def maxPathBytes : Nat := 4095

/-- Follows pieces of a path from the directory `at_`. The last piece, if it is a link, is
followed only on request. -/
def walk (root : Node) (follow : Bool) (links : Nat) (at_ : Location) (todo : List (List Char)) :
    Except FileError Target :=
  match todo with
  | [] =>
    match root.get? at_ with
    | some n => .ok (.found at_ n)
    | none => .error .notFound
  | p :: rest =>
    if p = [] ∨ p = ['.'] then walk root follow links at_ rest
    else if p = ['.', '.'] then walk root follow links at_.dropLast rest
    else
      let name := String.ofList p
      if maxNameBytes < name.utf8ByteSize then .error .nameTooLong
      else match root.get? (at_ ++ [name]) with
        | none => if rest.all (· = []) then .ok (.absent at_ name) else .error .notFound
        | some (.dir _) => walk root follow links (at_ ++ [name]) rest
        | some (.file id) =>
          if rest = [] then .ok (.found (at_ ++ [name]) (.file id)) else .error .notDirectory
        | some (.link target) =>
          if rest = [] ∧ follow = false then .ok (.found (at_ ++ [name]) (.link target))
          else match links with
            | 0 => .error .tooManyLinks
            | links' + 1 =>
              walk root follow links' (if Path.isAbsolute target.toList then [] else at_)
                (Path.pieces target.toList ++ rest)
termination_by (links, todo.length)

/-- Finds where a path leads. -/
def resolve (t : FileTree) (follow : Bool) (path : String) : Except FileError Target :=
  let chars := path.toList
  if chars.contains (Char.ofNat 0) then .error .invalidInput
  else if chars = [] then .error .notFound
  else if maxPathBytes < path.utf8ByteSize then .error .nameTooLong
  else walk t.root follow maxLinks (if Path.isAbsolute chars then [] else t.working)
    (Path.pieces chars)

/-- Whether a path leads to a node, links followed. -/
def pathExists (t : FileTree) (path : String) : Bool :=
  match t.resolve true path with
  | .ok (.found _ _) => true
  | _ => false

def isDir (t : FileTree) (path : String) : Bool :=
  match t.resolve true path with
  | .ok (.found _ n) => n.isDir
  | _ => false

/-- The bytes of the file that a path leads to. -/
def readFile (t : FileTree) (path : String) : Except FileError ByteArray := do
  match ← t.resolve true path with
  | .found _ (.file id) => .ok (t.bytes id)
  | .found _ _ => .error .isDirectory
  | .absent _ _ => .error .notFound

/-- The names in the directory that a path leads to. -/
def list (t : FileTree) (path : String) : Except FileError (List String) := do
  match ← t.resolve true path with
  | .found _ (.dir es) => .ok (es.map (·.1))
  | .found _ _ => .error .notDirectory
  | .absent _ _ => .error .notFound

/-- Puts a node at a location, or removes what is there. -/
def put (t : FileTree) (l : Location) (n : Option Node) : FileTree :=
  { t with root := t.root.alter l fun _ => n }

/-- Adds an empty file. -/
def create (t : FileTree) (l : Location) : FileTree × Nat :=
  let id := t.contents.size
  ({ t.put l (some (.file id)) with contents := t.contents.push .empty }, id)

def makeDir (t : FileTree) (path : String) : Except FileError FileTree := do
  match ← t.resolve false path with
  | .found _ _ => .error .alreadyExists
  | .absent d name => .ok (t.put (d ++ [name]) (some (.dir [])))

/-- Makes a directory if it is not there. -/
def ensureDir (t : FileTree) (path : String) : Except FileError FileTree :=
  match t.makeDir path with
  | .ok t' => .ok t'
  | .error e => if t.isDir path then .ok t else .error e

private def ancestorsWithin : Nat → List Char → List (List Char)
  | 0, _ => []
  | n + 1, path =>
    match Path.parent? path with
    | none => []
    | some p => path :: ancestorsWithin n p

/-- The path and its ancestors, nearest first, as long as they name something to make.
A parent is shorter than its child, so the length of the path bounds their number. -/
def ancestors (path : List Char) : List (List Char) := ancestorsWithin path.length path

theorem ancestors_cases (path : List Char) :
    ancestors path = [] ∨ ∃ rest, ancestors path = path :: rest := by
  unfold ancestors
  cases path.length with
  | zero => exact Or.inl rfl
  | succ n =>
    rw [ancestorsWithin]
    split
    · exact Or.inl rfl
    · exact Or.inr ⟨_, rfl⟩

/-- Climbs from a directory to the nearest ancestor that is there or can be made; the
list collects those still missing, outermost first. -/
def makeNearest (t : FileTree) : List (List Char) → List String →
    FileTree × Except FileError (List String)
  | [], missing => (t, .ok missing)
  | p :: rest, missing =>
    match t.makeDir (String.ofList p) with
    | .ok t' => (t', .ok missing)
    | .error .notFound => t.makeNearest rest (String.ofList p :: missing)
    | .error e => if t.isDir (String.ofList p) then (t, .ok missing) else (t, .error e)

/-- Makes directories in turn until one fails. -/
def makeEach (t : FileTree) : List String → FileTree × Except FileError Unit
  | [] => (t, .ok ())
  | p :: rest =>
    match t.ensureDir p with
    | .ok t' => t'.makeEach rest
    | .error e => (t, .error e)

/-- Makes a directory and those above it that are missing. What was made before a failure
stays. -/
def makeDirs (t : FileTree) (path : String) : FileTree × Except FileError Unit :=
  match t.makeNearest (ancestors path.toList) [] with
  | (t', .ok missing) => t'.makeEach missing
  | (t', .error e) => (t', .error e)

/-- Opens a file to append to, made empty if there is none. A path that ends in a slash
names a directory whether it is there or not. -/
def openAppend (t : FileTree) (path : String) : Except FileError (FileTree × Nat) :=
  let trimmed := String.ofList (path.toList.reverse.dropWhile (· = '/')).reverse
  if path.toList.getLast? = some '/' ∧ trimmed ≠ "" then
    match t.resolve false trimmed with
    | .error e => .error e
    | .ok _ => .error .isDirectory
  else
    match t.resolve true path with
    | .error e => .error e
    | .ok (.found _ (.file id)) => .ok (t, id)
    | .ok (.found _ _) => .error .isDirectory
    | .ok (.absent d name) => .ok (t.create (d ++ [name]))

/-- Adds bytes at the end of a file. -/
def append (t : FileTree) (id : Nat) (data : ByteArray) : FileTree :=
  { t with contents := t.contents.modify id (· ++ data) }

/-- Cuts a file to no bytes. -/
def truncate (t : FileTree) (id : Nat) : FileTree :=
  { t with contents := t.contents.modify id fun _ => .empty }

def removeFile (t : FileTree) (path : String) : Except FileError FileTree := do
  match ← t.resolve false path with
  | .found _ (.dir _) => .error .isDirectory
  | .found l _ => .ok (t.put l none)
  | .absent _ _ => .error .notFound

/-- Gives a node another name, in place of what has that name if the two may be exchanged. -/
def rename (t : FileTree) (source target : String) : Except FileError FileTree := do
  match ← t.resolve false source with
  | .absent _ _ => .error .notFound
  | .found l n =>
    let move (l' : Location) : Except FileError FileTree :=
      if l.isPrefixOf l' then .error .invalidInput
      else .ok ((t.put l none).put l' (some n))
    match ← t.resolve false target with
    | .absent d name => move (d ++ [name])
    | .found l' n' =>
      if l' = l then .ok t
      else match n, n' with
        | .dir _, .dir [] => move l'
        | .dir _, .dir _ => .error .directoryNotEmpty
        | .dir _, _ => .error .notDirectory
        | _, .dir _ => .error .isDirectory
        | _, _ => move l'

/-- Makes a symbolic link. -/
def makeLink (t : FileTree) (path target : String) : Except FileError FileTree := do
  match ← t.resolve false path with
  | .found _ _ => .error .alreadyExists
  | .absent d name => .ok (t.put (d ++ [name]) (some (.link target)))

/-- Removes a node with all below it; nothing happens where there is none. -/
def removeAll (t : FileTree) (path : String) : FileTree :=
  match t.resolve false path with
  | .ok (.found l _) => t.put l none
  | _ => t

/-- Sets the bytes of a file in place, or makes it. -/
def writeFile (t : FileTree) (path : String) (data : ByteArray) : Except FileError FileTree := do
  let (t', id) ← t.openAppend path
  .ok ((t'.truncate id).append id data)

/-- Puts a file at a path, and makes the directories above it that are missing. -/
def addFile (t : FileTree) (path : String) (data : ByteArray) : FileTree :=
  let t := match Path.parent? path.toList with
    | some directory => (t.makeDirs (String.ofList directory)).1
    | none => t
  (t.writeFile path data).toOption.getD t

/-- All nodes below the working directory. -/
def listing (t : FileTree) : List (Location × Node) :=
  match t.get? t.working with
  | some n => n.descendants
  | none => []

end FileTree

end Overseer
