import Overseer.Log.Writer
import Overseer.Shell.Evaluation

/-! A program from its start to the end of all that it started: what reaches its two output
pipes, when it ends, and when nobody can write to a pipe any more. -/

namespace Overseer.Programs

open Log (Stream)

/-- Why a program cannot be started. -/
inductive LaunchFailure where
  | notFound
  | permissionDenied
  | notDirectory
  | nameTooLong
  | tooManyLinks
  | zeroByte
  deriving DecidableEq, Repr

def LaunchFailure.message : LaunchFailure → String
  | notFound => "No such file or directory (os error 2)"
  | permissionDenied => "Permission denied (os error 13)"
  | notDirectory => "Not a directory (os error 20)"
  | nameTooLong => "File name too long (os error 36)"
  | tooManyLinks => "Too many levels of symbolic links (os error 40)"
  | zeroByte => "nul byte found in provided data"

/-- Whether a program can be started. A name without a slash is looked for where programs
are; a path must lead to one, and no other file may be run. -/
def launchable (t : FileTree) (words : List String) : Except LaunchFailure Unit :=
  let program := words.headD ""
  if words.any (·.toList.contains (Char.ofNat 0)) then .error .zeroByte
  else if program = "" then .error .notFound
  else if Shell.isProgram program ∨ Shell.isProgram (Shell.baseName program) then .ok ()
  else if !program.toList.contains '/' then
    if program = "." ∨ program = ".." then .error .permissionDenied
    else if FileTree.maxNameBytes < program.utf8ByteSize then .error .nameTooLong
    else .error .notFound
  else if Shell.systemPaths.contains program then .error .permissionDenied
  else match t.resolve true program with
    | .ok (.found _ _) => .error .permissionDenied
    | .ok (.absent _ _) => .error .notFound
    | .error .notDirectory => .error .notDirectory
    | .error .nameTooLong => .error .nameTooLong
    | .error .tooManyLinks => .error .tooManyLinks
    | .error _ => .error .notFound

/-- Bytes that reach a pipe at once. -/
structure Piece where
  at_ : Nat
  stream : Stream
  bytes : ByteArray

structure Performance where
  /-- In order of time. -/
  pieces : List Piece
  status : ExitStatus
  exitAt : Nat
  stdoutClosedAt : Nat
  stderrClosedAt : Nat
  tree : FileTree
  /-- All stretches of the lives of processes, the program's own first. -/
  lives : List Life

namespace Performance

def closedAt (p : Performance) : Stream → Nat
  | .stdout => p.stdoutClosedAt
  | .stderr => p.stderrClosedAt

def stdoutPipe : Nat := 0

def stderrPipe : Nat := 1

/-- The session of a program that is about to start. Its input is empty. -/
def initial (t : FileTree) (pid parent : Nat) (words : List Text.Octets) : Session :=
  { world := { tree := t, nextPid := pid + 1, lives := [⟨pid, parent, words, 0, none⟩] }
    process :=
      { pid, shellPid := pid, time := 0, name := words.headD []
        descriptors := [(0, .nothing), (1, .pipe stdoutPipe), (2, .pipe stderrPipe)] } }

/-- What a session amounts to whose first process has ended. -/
def ofSession (s : Session) (status : ExitStatus) : Performance :=
  let pieces := s.world.written.reverse.filterMap fun w =>
    if w.pipe = stdoutPipe then some ⟨w.at_, .stdout, Text.octetBytes w.bytes⟩
    else if w.pipe = stderrPipe then some ⟨w.at_, .stderr, Text.octetBytes w.bytes⟩
    else none
  let closed (pipe : Nat) : Nat :=
    ((s.world.holds.filter (·.pipe = pipe)).map (·.last)).foldl max 0
  { pieces := pieces.mergeSort fun a b => a.at_ ≤ b.at_
    status, exitAt := s.process.time
    stdoutClosedAt := closed stdoutPipe, stderrClosedAt := closed stderrPipe
    tree := s.world.tree
    lives := s.world.lives.reverse }

/-- Runs a program that can be started. -/
def run (t : FileTree) (pid parent : Nat) (words : List String) : Performance :=
  let octets := words.map Text.ofText
  let body : Run ExitStatus := do
    let r ← Run.attempt (Shell.runProgram Shell.evaluation (octets.headD []) (octets.drop 1))
    let status := Run.endOf r (← Run.process).status
    Run.holdPipes
    Run.finishLife
    return status
  let (r, s) := (body.run).run (initial t pid parent octets)
  let p := ofSession s (match r with
    | .ok status => status
    | .error _ => .code 125)
  { p with tree := { p.tree with working := t.working } }

end Performance

/-- A program that is started, or why it is not. -/
def launch (t : FileTree) (pid parent : Nat) (words : List String) :
    Except LaunchFailure Performance :=
  (launchable t words).map fun _ => Performance.run t pid parent words

end Overseer.Programs
