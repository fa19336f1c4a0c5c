/-! How a process ended. -/

namespace Overseer.Programs

inductive ExitStatus where
  | code (n : Nat)
  | signal (n : Nat)
  deriving DecidableEq, Repr

namespace ExitStatus

/-- The status that a shell gives to the end of a process. -/
def number : ExitStatus → Nat
  | code n => n
  | signal n => 128 + n

def isSuccess (s : ExitStatus) : Bool := s = code 0

/-- The code with which the program itself ends after one that it ran: a program that a signal
ended counts as failed. -/
def exitCode : ExitStatus → Nat
  | code n => n
  | signal _ => 1

end ExitStatus

end Overseer.Programs
