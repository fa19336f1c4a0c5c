import Overseer.Text.Octets

/-! Bytes that pass from one program to another over time. Times are in microseconds. -/

namespace Overseer.Programs

open Text (Octets)

/-- Bytes that arrive together. -/
structure Chunk where
  at_ : Nat
  bytes : Octets

/-- What can be read: chunks in order of time, then one byte without end, or the end. -/
structure Flow where
  chunks : List Chunk := []
  endless : Option Char := none
  endsAt : Nat := 0

namespace Flow

def empty : Flow := {}

def ofBytes (bytes : Octets) : Flow := ⟨if bytes = [] then [] else [⟨0, bytes⟩], none, 0⟩

/-- All bytes that come before the end, without those that come without end. -/
def bytes (f : Flow) : Octets := f.chunks.flatMap (·.bytes)

/-- The same bytes, none of them before a time. -/
def notBefore (f : Flow) (time : Nat) : Flow :=
  ⟨f.chunks.map fun c => { c with at_ := max c.at_ time }, f.endless, max f.endsAt time⟩

/-- One flow after another. Of what comes without end nothing follows. -/
def append (f g : Flow) : Flow :=
  if f.endless.isSome then f
  else
    let g := g.notBefore f.endsAt
    ⟨f.chunks ++ g.chunks, g.endless, g.endsAt⟩

/-- The first bytes, and the time at which they are complete. -/
def takeChunks : Nat → List Chunk → List Chunk × Nat
  | 0, _ => ([], 0)
  | n, [] => ([], n)
  | n, c :: r =>
    if n ≤ c.bytes.length then ([⟨c.at_, c.bytes.take n⟩], 0)
    else
      let (taken, missing) := takeChunks (n - c.bytes.length) r
      (c :: taken, missing)

def lastTime (f : Flow) : Nat := f.chunks.foldl (fun t c => max t c.at_) 0

/-- The first bytes of a flow, as a flow that ends where they are complete. -/
def take (n : Nat) (f : Flow) : Flow :=
  let (taken, missing) := takeChunks n f.chunks
  let time := taken.foldl (fun t c => max t c.at_) 0
  if missing = 0 then ⟨taken, none, time⟩
  else match f.endless with
    | some c => ⟨taken ++ [⟨f.endsAt, List.replicate missing c⟩], none, max time f.endsAt⟩
    | none => ⟨taken, none, f.endsAt⟩

/-- What remains after the first bytes. -/
def dropChunks : Nat → List Chunk → List Chunk
  | _, [] => []
  | n, c :: r =>
    if n < c.bytes.length then ⟨c.at_, c.bytes.drop n⟩ :: r
    else dropChunks (n - c.bytes.length) r

def drop (n : Nat) (f : Flow) : Flow := { f with chunks := dropChunks n f.chunks }

end Flow

end Overseer.Programs
