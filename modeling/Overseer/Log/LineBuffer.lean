/-! Cuts a byte stream that comes in chunks into lines. The bytes of a line in progress
are kept until its newline comes, or until there are more of them than a limit. -/

namespace Overseer.Log

def newline : UInt8 := 10

structure LineBuffer where
  pending : ByteArray
  limit : Nat

/-- One mebibyte. -/
def defaultLimit : Nat := 1024 * 1024

/-- Where the first newline at or after a place is. -/
def newlineFrom? (bytes : ByteArray) (i : Nat) : Option Nat :=
  if h : i < bytes.size then if bytes[i] = newline then some i else newlineFrom? bytes (i + 1)
  else none
termination_by bytes.size - i

theorem newlineFrom?_bounds {bytes : ByteArray} {i stop : Nat}
    (h : newlineFrom? bytes i = some stop) : i ≤ stop ∧ stop < bytes.size := by
  fun_induction newlineFrom? bytes i with
  | case1 i hi _ =>
    obtain rfl : i = stop := Option.some.inj h
    exact ⟨Nat.le_refl i, hi⟩
  | case2 i hi _ ih =>
    obtain ⟨hle, hlt⟩ := ih h
    exact ⟨Nat.le_of_succ_le hle, hlt⟩
  | case3 => cases h

/-- Adds the lines that end at or after `scanFrom`, where the first of them begins at `start`, and
tells where the line in progress begins. -/
def cutLines (bytes : ByteArray) (scanFrom start : Nat) (lines : Array ByteArray) :
    Array ByteArray × Nat :=
  match h : newlineFrom? bytes scanFrom with
  | none => (lines, start)
  | some stop => cutLines bytes (stop + 1) (stop + 1) (lines.push (bytes.extract start stop))
termination_by bytes.size - scanFrom
decreasing_by
  have := newlineFrom?_bounds h
  omega

namespace LineBuffer

def withLimit (limit : Nat) : LineBuffer := ⟨.empty, limit⟩

def new : LineBuffer := withLimit defaultLimit

/-- Takes a chunk and gives the lines it completes. What is pending has no newline, so the search
begins at the chunk. If what is left is then longer than the limit it is given out as a line of its
own. -/
def push (b : LineBuffer) (chunk : ByteArray) : LineBuffer × List ByteArray :=
  let bytes := b.pending ++ chunk
  let (lines, start) := cutLines bytes b.pending.size 0 #[]
  let pending := bytes.extract start bytes.size
  if b.limit < pending.size then (⟨.empty, b.limit⟩, (lines.push pending).toList)
  else (⟨pending, b.limit⟩, lines.toList)

/-- Takes the line in progress, if it has bytes. -/
def takeRemaining (b : LineBuffer) : LineBuffer × Option ByteArray :=
  if b.pending.isEmpty then (b, none) else (⟨.empty, b.limit⟩, some b.pending)

theorem push_limit (b : LineBuffer) (chunk : ByteArray) : (b.push chunk).1.limit = b.limit := by
  unfold push
  dsimp only
  split <;> rfl

theorem push_pending_le (b : LineBuffer) (chunk : ByteArray) :
    (b.push chunk).1.pending.size ≤ b.limit := by
  unfold push
  dsimp only
  split
  · exact Nat.zero_le _
  · next h => exact Nat.not_lt.mp h

end LineBuffer

end Overseer.Log
