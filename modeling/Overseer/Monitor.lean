import Overseer.CpuSamples
import Overseer.Event
import Overseer.Process.Tree
import Overseer.Source

/-! Samples processes, alone or with their descendants. Each poll of descendants drops the
processor samples of every process that it did not visit. -/

namespace Overseer.Monitor

/-- Reads one process. If it is valid and its processor time is known, that is kept as
the latest sample of the id asked for and gives the rate. The clock is given for each id: a
poll reads an id at most once, so that with the ids in the order of the visits `instant` is
the sequence of the clock's readings. -/
def snapshot (src : Source) (instant : Pid → Nat) (samples : CpuSamples) (pid : Pid) :
    Except Overflow (Snapshot × CpuSamples) :=
  match src.read pid with
  | .error e => .error e
  | .ok o =>
    match o.info.isValid, o.cpuMillis with
    | true, some cpuMillis =>
      let (samples, rate) := samples.record pid ⟨cpuMillis, instant pid⟩
      .ok ({ o.info with cpuPercent := rate }, samples)
    | _, _ => .ok (o.info, samples)

/-- Drops the samples of all but the visited processes. -/
def evict (samples : CpuSamples) (visited : PidSet) : CpuSamples × List Event :=
  let (kept, removed) := samples.retain visited
  (kept, if removed = 0 then [] else [.samplesEvicted removed kept.size])

/-- A process met on the way down, with the place of its parent among the visits. -/
structure Visit where
  info : Snapshot
  parent : Option Nat

structure TreeSearch where
  visited : PidSet
  /-- In the order of reading; a parent stands before its children. -/
  visits : Array Visit
  samples : CpuSamples

/-- Takes the next id from the work list; an id met before is passed over. The children
of a valid process are put in front of the remaining work. -/
def searchTree (src : Source) (instant : Pid → Nat) (s : TreeSearch) :
    List (Pid × Option Nat) → Except Overflow TreeSearch
  | [] => .ok s
  | (pid, parent) :: work =>
    if pid ∈ s.visited then searchTree src instant s work
    else match snapshot src instant s.samples pid with
      | .error e => .error e
      | .ok (info, samples) =>
        let next := if info.isValid then (src.children pid).map (·, some s.visits.size) else []
        searchTree src instant
          ⟨s.visited.insert pid, s.visits.push ⟨info, parent⟩, samples⟩ (next ++ work)
termination_by work => (s.visited.unmarked, work.length)
decreasing_by
  · exact Prod.Lex.right _ (by simp)
  · exact Prod.Lex.left _ _ (PidSet.unmarked_insert_lt _ _ ‹_›)

/-- Hangs the visits from the last to the first under their parents; `gathered` has the
children found so far of each visit. -/
def hang (gathered : Array (List ProcessTree)) : List (Visit × Nat) → List ProcessTree
  | [] => []
  | (v, i) :: earlier =>
    let tree := ProcessTree.node v.info (gathered.getD i [])
    match v.parent with
    | some p => hang (gathered.modify p (tree :: ·)) earlier
    | none => tree :: hang gathered earlier

/-- The tree of a search, whose first visit is the root. -/
def assemble (visits : Array Visit) (root : Pid) : ProcessTree :=
  (hang (.replicate visits.size []) visits.toList.zipIdx.reverse).getLast?.getD
    (.leaf (.missing root))

/-- What a poll gives, with the samples kept for the next one. -/
structure Poll (α : Type) where
  result : α
  samples : CpuSamples
  events : List Event

def info (src : Source) (instant : Pid → Nat) (samples : CpuSamples) (pid : Pid) :
    Except Overflow (Poll Snapshot) :=
  match snapshot src instant samples pid with
  | .error e => .error e
  | .ok (info, samples) => .ok ⟨info, samples, []⟩

/-- A process and all its descendants, each once. One that cannot be read is a leaf. -/
def tree (src : Source) (instant : Pid → Nat) (samples : CpuSamples) (root : Pid) :
    Except Overflow (Poll ProcessTree) :=
  match searchTree src instant ⟨.empty, #[], samples⟩ [(root, none)] with
  | .error e => .error e
  | .ok s =>
    let (samples, events) := evict s.samples s.visited
    .ok ⟨assemble s.visits root, samples, events ++ [.treeSampled s.visits.size]⟩

structure FamilySearch where
  visited : PidSet
  /-- The valid processes, in the order of reading. -/
  family : Array Snapshot
  samples : CpuSamples

def searchFamily (src : Source) (instant : Pid → Nat) (s : FamilySearch) :
    List Pid → Except Overflow FamilySearch
  | [] => .ok s
  | pid :: work =>
    if pid ∈ s.visited then searchFamily src instant s work
    else match snapshot src instant s.samples pid with
      | .error e => .error e
      | .ok (info, samples) =>
        if info.isValid then
          searchFamily src instant ⟨s.visited.insert pid, s.family.push info, samples⟩
            (src.children pid ++ work)
        else searchFamily src instant ⟨s.visited.insert pid, s.family, samples⟩ work
termination_by work => (s.visited.unmarked, work.length)
decreasing_by
  · exact Prod.Lex.right _ (by simp)
  · exact Prod.Lex.left _ _ (PidSet.unmarked_insert_lt _ _ ‹_›)
  · exact Prod.Lex.left _ _ (PidSet.unmarked_insert_lt _ _ ‹_›)

/-- The root, then its descendants depth first if asked for. If the root cannot be read
there is no family, and no sample is dropped. -/
def family (src : Source) (instant : Pid → Nat) (samples : CpuSamples) (root : Pid)
    (descendants : Bool) : Except Overflow (Poll (List Snapshot)) :=
  match snapshot src instant samples root with
  | .error e => .error e
  | .ok (info, samples) =>
    if info.isValid then
      match searchFamily src instant ⟨PidSet.single root, #[info], samples⟩
          (if descendants then src.children root else []) with
      | .error e => .error e
      | .ok s =>
        let (samples, events) := evict s.samples s.visited
        .ok ⟨s.family.toList, samples, events⟩
    else .ok ⟨[], samples, []⟩

end Overseer.Monitor
