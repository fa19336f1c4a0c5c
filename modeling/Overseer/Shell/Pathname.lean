import Overseer.FileTree
import Overseer.Shell.Pattern

/-! Names of files that fit a pattern. -/

namespace Overseer.Shell

open Text (Octets)

def hasPattern (field : List Marked) : Bool :=
  field.any fun (c, quoted) => !quoted && ['*', '?', '['].contains c

/-- The parts between slashes. -/
def markedPieces : List Marked → List (List Marked)
  | [] => [[]]
  | (c, quoted) :: r =>
    if c = '/' then [] :: markedPieces r
    else match markedPieces r with
      | [] => [[(c, quoted)]]
      | p :: ps => ((c, quoted) :: p) :: ps

/-- The order of names, byte by byte. -/
def precedes : Octets → Octets → Bool
  | [], _ => true
  | _ :: _, [] => false
  | a :: r, b :: s => a.toNat < b.toNat || (a == b && precedes r s)

/-- The names in a directory that a part fits; a leading dot must be written. -/
def fittingNames (t : FileTree) (directory : Octets) (piece : List Marked) : List Octets :=
  match t.list (if directory.isEmpty then "." else Text.toText directory) with
  | .error _ => []
  | .ok names =>
    ((names.map Text.ofText).filter fun n =>
      (n.head? ≠ some '.' || piece.head?.any (·.1 = '.')) && fits piece n).mergeSort precedes

/-- Goes down from paths by one part of a pattern after another. -/
def descend (t : FileTree) (paths : List Octets) : List (List Marked) → List Octets
  | [] => paths
  | piece :: rest =>
    let slash : Octets := if rest.isEmpty then [] else ['/']
    let next := paths.flatMap fun path =>
      if hasPattern piece then (fittingNames t path piece).map fun n => path ++ n ++ slash
      else [path ++ piece.map (·.1) ++ slash]
    descend t next rest

/-- The paths that a field fits, or the field itself if there are none. -/
def pathnames (t : FileTree) (field : List Marked) : List Octets :=
  if hasPattern field then
    let found := (descend t [[]] (markedPieces field)).filter fun p => t.pathExists (Text.toText p)
    if found.isEmpty then [field.map (·.1)] else found
  else [field.map (·.1)]

end Overseer.Shell
