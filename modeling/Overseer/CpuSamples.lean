import Overseer.Calendar
import Overseer.Pid
import Std.Data.TreeMap

/-! The last processor time seen of each process, which turns two observations of a
process into a rate. -/

namespace Overseer

/-- Milliseconds of processor time, seen at a point of the monotonic clock (nanoseconds). -/
structure CpuSample where
  cpuMillis : UInt64
  observedAt : Nat
  deriving DecidableEq, Repr

abbrev CpuSamples := Std.TreeMap Pid CpuSample compare

namespace CpuSamples

/-- The percentage of one processor between two observations, over whole milliseconds:
none have passed, nothing was used. A counter that went back counts as unchanged. -/
def rate (previous current : CpuSample) : Float :=
  let wallMillis := (current.observedAt - previous.observedAt) / Timestamp.nanosPerMilli
  if wallMillis = 0 then 0
  else
    let used := current.cpuMillis.toNat - previous.cpuMillis.toNat
    Float.ofNat used / Float.ofNat wallMillis * 100

/-- Keeps an observation and gives the rate since the one before; 0 for the first. -/
def record (samples : CpuSamples) (pid : Pid) (sample : CpuSample) : CpuSamples × Float :=
  (samples.insert pid sample,
    match samples[pid]? with
    | some previous => rate previous sample
    | none => 0)

/-- Drops the samples of processes outside a set, and tells how many those were. -/
def retain (samples : CpuSamples) (alive : PidSet) : CpuSamples × Nat :=
  let kept := samples.filter fun pid _ => alive.contains pid
  (kept, samples.size - kept.size)

end CpuSamples

end Overseer
