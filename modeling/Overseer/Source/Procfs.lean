import Overseer.FileTree
import Overseer.Source
import Overseer.Source.Stat
import Overseer.Text.Lines
import Overseer.Text.Utf8

/-! Processes as a directory tells them that has a subdirectory for each id. The status
line is needed; every other file only adds to what is known. -/

namespace Overseer

structure Procfs where
  root : String
  /-- Times in status lines are in ticks. -/
  ticksPerSecond : UInt64
  pageBytes : UInt64
  /-- Seconds since 1970 at which the system started, if known. -/
  bootSeconds : Option UInt64
  /-- No time is divided by zero. -/
  ticks_pos : 0 < ticksPerSecond

namespace Procfs

def defaultTicksPerSecond : UInt64 := 100

def defaultPageBytes : UInt64 := 4096

/-- What the system says of itself; a value that is not positive says nothing. -/
def systemValue (value : Int64) (fallback : UInt64) : UInt64 :=
  if 0 < value then value.toUInt64 else fallback

theorem systemValue_pos (value : Int64) {fallback : UInt64} (h : 0 < fallback) :
    0 < systemValue value fallback := by
  unfold systemValue
  split
  · next hvalue =>
    obtain ⟨n⟩ := value
    rw [UInt64.pos_iff_ne_zero]
    rintro rfl
    exact absurd hvalue (by decide)
  · exact h

def below (directory name : String) : String :=
  String.ofList (Path.join directory.toList name.toList)

/-- The text of a file, if it is there and well-formed UTF-8. -/
def readText? (t : FileTree) (path : String) : Option (List Char) :=
  match t.readFile path with
  | .ok bytes => (Text.decodeUtf8? bytes).map String.toList
  | .error _ => none

/-- The start of the system: the first line that begins with `btime ` tells it. -/
def bootSeconds? (t : FileTree) (root : String) : Option UInt64 := do
  let stat ← readText? t (below root "stat")
  let seconds ← (Text.lines stat).findSome? (Text.after? "btime ")
  Text.unsigned64? (Text.trim seconds)

/-- A source over a directory; `host` is the start of the system where the directory does
not tell it, `ticks` and `page` are what the system says of its ticks and pages. -/
def openAt (t : FileTree) (root : String) (host : Option UInt64) (ticks : Int64 := 0)
    (page : Int64 := 0) : Procfs where
  root
  ticksPerSecond := systemValue ticks defaultTicksPerSecond
  pageBytes := systemValue page defaultPageBytes
  bootSeconds := (bootSeconds? t root).or host
  ticks_pos := systemValue_pos ticks (by decide)

def directory (p : Procfs) (pid : Pid) : String := below p.root (toString pid.toNat)

def file (p : Procfs) (pid : Pid) (name : String) : String := below (p.directory pid) name

def statLine? (p : Procfs) (t : FileTree) (pid : Pid) : Option StatLine :=
  (readText? t (p.file pid "stat")).bind StatLine.parse?

theorem statLine?_eq_some_iff {p : Procfs} {t : FileTree} {pid : Pid} {s : StatLine} :
    p.statLine? t pid = some s ↔
      ∃ text, readText? t (p.file pid "stat") = some text ∧ StatLine.parse? text = some s :=
  Option.bind_eq_some_iff

/-- Milliseconds for ticks of user and system time. -/
def cpuMillis (p : Procfs) (s : StatLine) : Except Overflow UInt64 := do
  let ticks ← addChecked s.userTicks s.systemTicks
  let scaled ← mulChecked ticks 1000
  return scaled / p.ticksPerSecond

/-- The time at so many seconds since 1970, if the calendar has it, and the whole seconds
since then. -/
def startAndUptime (now : Timestamp) (seconds : UInt64) : Option Timestamp × UInt64 :=
  match Timestamp.of? seconds.toNat 0 with
  | some start => (some start, UInt64.ofNat (now.seconds - start.seconds).toNat)
  | none => (none, 0)

/-- When the process started, and for how long it has run. -/
def times (p : Procfs) (now : Timestamp) (s : StatLine) :
    Except Overflow (Option Timestamp × UInt64) :=
  match p.bootSeconds with
  | none => .ok (none, 0)
  | some boot => (addChecked boot (s.startTicks / p.ticksPerSecond)).map (startAndUptime now)

/-- The name is the one of the status line, unless a file of its own gives it. -/
def name (p : Procfs) (t : FileTree) (pid : Pid) (s : StatLine) : String :=
  String.ofList (match readText? t (p.file pid "comm") with
    | some text => Text.trimRight text
    | none => s.name)

/-- The arguments of the process, which end with zero bytes, between blanks. -/
def command (p : Procfs) (t : FileTree) (pid : Pid) : String :=
  match t.readFile (p.file pid "cmdline") with
  | .ok bytes =>
    let joined := bytes.data.toList.map fun b => if b = 0 then 0x20 else b
    String.ofList (Text.trim (Text.decodeLossy joined))
  | .error _ => ""

/-- The counter that lines with a label give; the last of them counts, and what is no
number counts as 0. -/
def ioCounter (label : String) (io : List (List Char)) : UInt64 :=
  io.foldl (fun n line =>
    match Text.after? label line with
    | some value => (Text.unsigned64? (Text.trim value)).getD 0
    | none => n) 0

def ioCounters (p : Procfs) (t : FileTree) (pid : Pid) : UInt64 × UInt64 :=
  match readText? t (p.file pid "io") with
  | some text =>
    let io := Text.lines text
    (ioCounter "read_bytes:" io, ioCounter "write_bytes:" io)
  | none => (0, 0)

/-- Reads a process. Id 0, and one without a usable status line, is missing. -/
def read (p : Procfs) (t : FileTree) (now : Timestamp) (pid : Pid) :
    Except Overflow Observation :=
  if pid = 0 then .ok (.missing pid)
  else match p.statLine? t pid with
    | none => .ok (.missing pid)
    | some s => do
      let cpu ← p.cpuMillis s
      let (startedAt, uptime) ← p.times now s
      let (readBytes, writtenBytes) := p.ioCounters t pid
      return {
        info := {
          pid, parent := s.parent, name := p.name t pid s, command := p.command t pid
          state := StatLine.runState s.state, startedAt
          residentBytes := mulSaturating s.residentPages p.pageBytes
          virtualBytes := s.virtualBytes, threads := s.threads, uptime
          readBytes, writtenBytes }
        cpuMillis := some cpu }

/-- Ids in a list without the ones met before. -/
def distinct (pids : List Pid) : List Pid :=
  (pids.foldl (fun (seen, out) p =>
    if p ∈ seen then (seen, out) else (seen.insert p, p :: out))
    ((∅ : PidSet), ([] : List Pid))).2.reverse

/-- The children that the threads of a process list, each once; none is known if no
thread has a readable list. -/
def childrenFromTasks? (p : Procfs) (t : FileTree) (pid : Pid) : Option (List Pid) :=
  let tasks := below (p.directory pid) "task"
  match t.list tasks with
  | .error _ => none
  | .ok names =>
    let lists := names.filterMap fun n => readText? t (below (below tasks n) "children")
    if lists.isEmpty then none
    else some (distinct (lists.flatMap fun text => (Text.words text).filterMap Text.unsigned32?))

/-- The processes of the whole directory that name this one as their parent, ascending. -/
def childrenFromScan (p : Procfs) (t : FileTree) (pid : Pid) : List Pid :=
  match t.list p.root with
  | .error _ => []
  | .ok names =>
    ((names.filterMap fun n => Text.unsigned32? n.toList).filter fun candidate =>
      match p.statLine? t candidate with
      | some s => s.parent == pid
      | none => false).mergeSort (· ≤ ·)

/-- A name in the directory is the id of a process whose status line names this one as its
parent. -/
def Scanned (p : Procfs) (t : FileTree) (pid c : Pid) : Prop :=
  ∃ names n s, t.list p.root = .ok names ∧ n ∈ names ∧ Text.unsigned32? n.toList = some c ∧
    p.statLine? t c = some s ∧ s.parent = pid

theorem mergeSort_ascending (pids : List Pid) : (pids.mergeSort (· ≤ ·)).Pairwise (· ≤ ·) := by
  have h : (pids.mergeSort (· ≤ ·)).Pairwise fun a b => decide (a ≤ b) = true := by
    apply List.pairwise_mergeSort
    · intro a b c hab hbc
      exact decide_eq_true (UInt32.le_trans (of_decide_eq_true hab) (of_decide_eq_true hbc))
    · intro a b
      simpa using UInt32.le_total a b
  exact h.imp of_decide_eq_true

theorem childrenFromScan_ascending (p : Procfs) (t : FileTree) (pid : Pid) :
    (p.childrenFromScan t pid).Pairwise (· ≤ ·) := by
  unfold childrenFromScan
  split
  · exact List.Pairwise.nil
  · exact mergeSort_ascending _

theorem mem_childrenFromScan_iff (p : Procfs) (t : FileTree) (pid c : Pid) :
    c ∈ p.childrenFromScan t pid ↔ p.Scanned t pid c := by
  unfold childrenFromScan Scanned
  cases hlist : t.list p.root with
  | error e => simp
  | ok names =>
    dsimp only
    rw [List.mem_mergeSort, List.mem_filter, List.mem_filterMap]
    constructor
    · rintro ⟨⟨n, hn, hc⟩, hparent⟩
      cases hs : p.statLine? t c with
      | none =>
        rw [hs] at hparent
        cases hparent
      | some s =>
        rw [hs] at hparent
        exact ⟨names, n, s, rfl, hn, hc, rfl, beq_iff_eq.mp hparent⟩
    · rintro ⟨names', n, s, hnames, hn, hc, hs, hparent⟩
      obtain rfl : names = names' := Except.ok.inj hnames
      rw [hs]
      exact ⟨⟨n, hn, hc⟩, beq_iff_eq.mpr hparent⟩

def children (p : Procfs) (t : FileTree) (pid : Pid) : List Pid :=
  if pid = 0 || !t.pathExists (p.directory pid) then []
  else (p.childrenFromTasks? t pid).getD (p.childrenFromScan t pid)

def source (p : Procfs) (t : FileTree) (now : Timestamp) : Source where
  read := p.read t now
  children := p.children t

end Procfs

end Overseer
