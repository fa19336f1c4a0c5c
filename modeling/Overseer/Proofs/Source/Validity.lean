import Overseer.Proofs.Monitor.Invalid
import Overseer.Proofs.Source.StandIn

/-! What a directory tells of a process. Without a usable status line that is nothing, and each
other file tells its own fields. `read_validity`: a process with a usable line is valid if it has a
name as well, which a file with blanks only takes from it. -/

namespace Overseer

/-- A missing process adds to totals only as one process more. -/
theorem Summary.add_missing (total : Summary) (pid : Pid) :
    total.add (.missing pid) =
      .ok { total with
        processes := total.processes + 1, cpuPercent := total.cpuPercent + 0 } := by
  have hzero (x : UInt64) : addChecked x 0 = .ok x := by
    rw [addChecked_of_lt (by simpa using x.toNat_lt_size), UInt64.add_zero]
  rw [add_eq, show (Snapshot.missing pid).residentBytes = 0 from rfl, hzero,
    show (Snapshot.missing pid).threads.toUInt64 = 0 from rfl]
  simp only [Except.bind, hzero]
  rfl

namespace Procfs

/-- The status file of a process is there, is text, and has a name and fields enough. -/
def Usable (p : Procfs) (t : FileTree) (pid : Pid) : Prop :=
  0 < pid ∧ ∃ text s, readText? t (p.file pid "stat") = some text ∧ StatLine.parse? text = some s

/-- A process has a name: the file of its name has more than blanks in it, or there is no such file
and the status line has a name. -/
def HasName (p : Procfs) (t : FileTree) (pid : Pid) : Prop :=
  match readText? t (p.file pid "comm") with
  | some text => ∃ c ∈ text, Text.isBlank c = false
  | none => ∃ s, p.statLine? t pid = some s ∧ s.name ≠ []

variable {p : Procfs} {t t' : FileTree} {now : Timestamp} {pid : Pid} {s : StatLine}

theorem usable_iff : p.Usable t pid ↔ pid ≠ 0 ∧ ∃ s, p.statLine? t pid = some s := by
  rw [Usable, UInt32.pos_iff_ne_zero, exists_comm]
  simp only [statLine?_eq_some_iff]

/-! ## One read -/

/-- What is told of a process with a status line, its times being known. -/
def observed (p : Procfs) (t : FileTree) (pid : Pid) (s : StatLine) (cpu : UInt64)
    (times : Option Timestamp × UInt64) : Observation where
  info := {
    pid, parent := s.parent, name := p.name t pid s, command := p.command t pid
    state := StatLine.runState s.state, startedAt := times.1
    residentBytes := mulSaturating s.residentPages p.pageBytes
    virtualBytes := s.virtualBytes, threads := s.threads, uptime := times.2
    readBytes := (p.ioCounters t pid).1, writtenBytes := (p.ioCounters t pid).2 }
  cpuMillis := some cpu

theorem read_of_line (hpid : pid ≠ 0) (hline : p.statLine? t pid = some s) {cpu : UInt64}
    {times : Option Timestamp × UInt64} (hcpu : p.cpuMillis s = .ok cpu)
    (htimes : p.times now s = .ok times) :
    p.read t now pid = .ok (p.observed t pid s cpu times) := by
  rw [read, if_neg hpid, hline]
  simp only [hcpu, htimes, bind, Except.bind, pure, Except.pure, observed]

theorem read_unusable (h : ¬ p.Usable t pid) : p.read t now pid = .ok (.missing pid) := by
  rw [usable_iff, not_and] at h
  rw [read]
  split
  · rfl
  · next hpid =>
    cases hline : p.statLine? t pid with
    | none => rfl
    | some s => exact absurd ⟨s, hline⟩ (h hpid)

theorem observed_of_read {o : Observation} (h : p.Usable t pid) (ho : p.read t now pid = .ok o) :
    ∃ s cpu times, p.statLine? t pid = some s ∧ p.cpuMillis s = .ok cpu ∧
      p.times now s = .ok times ∧ o = p.observed t pid s cpu times := by
  obtain ⟨hpid, s, hline⟩ := usable_iff.mp h
  cases hcpu : p.cpuMillis s with
  | error e =>
    rw [read, if_neg hpid, hline] at ho
    simp only [hcpu, bind, Except.bind] at ho
    cases ho
  | ok cpu =>
    cases htimes : p.times now s with
    | error e =>
      rw [read, if_neg hpid, hline] at ho
      simp only [hcpu, htimes, bind, Except.bind] at ho
      cases ho
    | ok times =>
      rw [read_of_line hpid hline hcpu htimes] at ho
      exact ⟨s, cpu, times, hline, hcpu, htimes, (Except.ok.inj ho).symm⟩

theorem keyed_read (p : Procfs) (t : FileTree) (now : Timestamp) (pid : Pid) (o : Observation)
    (ho : p.read t now pid = .ok o) : o.info.pid = pid := by
  by_cases h : p.Usable t pid
  · obtain ⟨s, cpu, times, -, -, -, rfl⟩ := observed_of_read h ho
    rfl
  · rw [read_unusable h] at ho
    cases ho
    rfl

/-! ## The name -/

theorem trimRight_eq_nil_iff (text : List Char) :
    Text.trimRight text = [] ↔ ∀ c ∈ text, Text.isBlank c = true := by
  rw [Text.trimRight, List.reverse_eq_nil_iff, Text.trimLeft_eq_nil_iff]
  simp only [List.mem_reverse]

theorem name_ne_iff (hline : p.statLine? t pid = some s) :
    p.name t pid s ≠ "" ↔ p.HasName t pid := by
  have hofList (l : List Char) : String.ofList l ≠ "" ↔ l ≠ [] := by simp
  unfold name HasName
  rw [hofList]
  cases readText? t (p.file pid "comm") with
  | none => simp [hline]
  | some text => simp [trimRight_eq_nil_iff]

/-! ## The files apart -/

/-- Two trees with the same status file tell the same of a process, but for the name, the command
and the counters; each of these is the same if its own file is. -/
structure Apart (p : Procfs) (pid : Pid) (t t' : FileTree) (o o' : Observation) : Prop where
  rest : o' = { o with info := { o.info with
    name := o'.info.name, command := o'.info.command
    readBytes := o'.info.readBytes, writtenBytes := o'.info.writtenBytes } }
  name : readText? t' (p.file pid "comm") = readText? t (p.file pid "comm") →
    o'.info.name = o.info.name
  command : t'.readFile (p.file pid "cmdline") = t.readFile (p.file pid "cmdline") →
    o'.info.command = o.info.command
  counters : readText? t' (p.file pid "io") = readText? t (p.file pid "io") →
    o'.info.readBytes = o.info.readBytes ∧ o'.info.writtenBytes = o.info.writtenBytes

theorem name_congr (h : readText? t' (p.file pid "comm") = readText? t (p.file pid "comm"))
    (s : StatLine) : p.name t' pid s = p.name t pid s := by
  unfold name
  rw [h]

theorem command_congr
    (h : t'.readFile (p.file pid "cmdline") = t.readFile (p.file pid "cmdline")) :
    p.command t' pid = p.command t pid := by
  unfold command
  rw [h]

theorem ioCounters_congr (h : readText? t' (p.file pid "io") = readText? t (p.file pid "io")) :
    p.ioCounters t' pid = p.ioCounters t pid := by
  unfold ioCounters
  rw [h]

theorem exists_apart (hstat : readText? t' (p.file pid "stat") = readText? t (p.file pid "stat"))
    {o : Observation} (ho : p.read t now pid = .ok o) :
    ∃ o', p.read t' now pid = .ok o' ∧ p.Apart pid t t' o o' := by
  have hline : p.statLine? t' pid = p.statLine? t pid := by rw [statLine?, hstat, statLine?]
  by_cases h : p.Usable t pid
  · obtain ⟨s, cpu, times, hs, hcpu, htimes, rfl⟩ := observed_of_read h ho
    refine ⟨p.observed t' pid s cpu times, ?_, ?_, fun hcomm => ?_, fun hcmdline => ?_,
      fun hio => ?_⟩
    · exact read_of_line (usable_iff.mp h).1 (hline.trans hs) hcpu htimes
    · simp only [observed]
    · simpa only [observed] using name_congr hcomm s
    · simpa only [observed] using command_congr hcmdline
    · simp only [observed, ioCounters_congr hio, and_self]
  · have h' : ¬ p.Usable t' pid := by rwa [Usable, hstat]
    rw [read_unusable h] at ho
    cases ho
    exact ⟨.missing pid, read_unusable h', rfl, fun _ => rfl, fun _ => rfl, fun _ => ⟨rfl, rfl⟩⟩

/-- A process is missing just if its status file is not usable, and is then passed over by all polls
and counted in totals, with nothing to add. Otherwise it is valid if it has a name, and is passed
over if not, with all that the files tell of it. Each other file tells its own fields only. -/
theorem read_validity (p : Procfs) (t : FileTree) (now : Timestamp) (pid : Pid) :
    (¬ p.Usable t pid → p.read t now pid = .ok (.missing pid) ∧ ∀ total : Summary,
      total.add (.missing pid) = .ok { total with
        processes := total.processes + 1, cpuPercent := total.cpuPercent + 0 }) ∧
    ∀ o, p.read t now pid = .ok o →
      (o.info.isValid = true ↔ p.Usable t pid ∧ p.HasName t pid) ∧
      (o = .missing pid ↔ ¬ p.Usable t pid) ∧
      (o.info.isValid = false → Monitor.PassedOver (p.source t now) pid o.info) ∧
      ∀ t', readText? t' (p.file pid "stat") = readText? t (p.file pid "stat") →
        ∃ o', p.read t' now pid = .ok o' ∧ p.Apart pid t t' o o' := by
  refine ⟨fun h => ⟨read_unusable h, fun total => total.add_missing pid⟩, fun o ho => ?_⟩
  refine ⟨?_, ?_, fun hinvalid => ?_, fun t' hstat => exists_apart hstat ho⟩
  · by_cases h : p.Usable t pid
    · obtain ⟨s, cpu, times, hs, -, -, rfl⟩ := observed_of_read h ho
      rw [← name_ne_iff hs, Snapshot.isValid]
      simp [observed, h, h.1]
    · rw [read_unusable h] at ho
      cases ho
      simp [h, Observation.missing, Snapshot.isValid_missing]
  · constructor
    · rintro rfl h
      obtain ⟨s, cpu, times, -, -, -, ho'⟩ := observed_of_read h ho
      cases congrArg (·.cpuMillis) ho'
    · intro h
      rw [read_unusable h] at ho
      exact (Except.ok.inj ho).symm
  · exact Monitor.passedOver_of_invalid (keyed_read p t now) ho hinvalid

/-! ## A blank name -/

/-- A process whose name is set to nothing: its status line has one, the file of its name has a
line end. -/
def nameless : FileTree where
  root := .dir [("work", .dir [("proc", .dir [
    ("1", .dir [("stat", .file 0), ("comm", .file 1)])])])]
  contents := #[(String.ofList (Status.running 1 0 "worker").text).toUTF8, "\n".toUTF8]
  working := ["work"]

def booted : Procfs := .usual "proc" (some 1000)

theorem nameless_stat :
    readText? nameless (booted.file 1 "stat") = some (Status.running 1 0 "worker").text := by
  have hfile : booted.file 1 "stat" = "proc/1/stat" := by decide
  have hread : nameless.readFile "proc/1/stat" =
      .ok (String.ofList (Status.running 1 0 "worker").text).toUTF8 := by
    simp +decide [FileTree.readFile, FileTree.resolve, nameless, Path.pieces, FileTree.walk,
      Node.get?, Node.entries, FileTree.bytes, bind, Except.bind]
  rw [hfile, readText?, hread]
  simp only [Text.decodeUtf8?_toUTF8, Option.map_some, String.toList_ofList]

theorem nameless_comm : readText? nameless (booted.file 1 "comm") = some ['\n'] := by
  have hfile : booted.file 1 "comm" = "proc/1/comm" := by decide
  have hread : nameless.readFile "proc/1/comm" = .ok "\n".toUTF8 := by
    simp +decide [FileTree.readFile, FileTree.resolve, nameless, Path.pieces, FileTree.walk,
      Node.get?, Node.entries, List.lookup_cons, FileTree.bytes, bind, Except.bind]
  rw [hfile, readText?, hread]
  simp only [Text.decodeUtf8?_toUTF8, Option.map_some]
  rfl

theorem nameless_line :
    booted.statLine? nameless 1 = some (Status.running 1 0 "worker").line := by
  rw [statLine?, nameless_stat, Option.bind_some, StatLine.parse?_text]

theorem nameless_read : ∃ times, booted.read nameless ⟨2000, 0⟩ 1 =
    .ok (booted.observed nameless 1 (Status.running 1 0 "worker").line 2570 times) := by
  have hfits : (Status.running 1 0 "worker").Fits booted := Status.running_fits ..
  obtain ⟨times, htimes⟩ := Status.exists_times hfits ⟨2000, 0⟩
  exact ⟨times, read_of_line (by decide) nameless_line (Status.cpuMillis_line hfits) htimes⟩

theorem nameless_usable : booted.Usable nameless 1 ∧ ¬ booted.HasName nameless 1 := by
  refine ⟨usable_iff.mpr ⟨by decide, _, nameless_line⟩, ?_⟩
  have hblank : Text.isBlank '\n' = true := rfl
  unfold HasName
  simp [nameless_comm, hblank]

theorem read_validity_nameless : ∃ o, booted.read nameless ⟨2000, 0⟩ 1 = .ok o ∧
    o.info.isValid = false ∧ Monitor.PassedOver (booted.source nameless ⟨2000, 0⟩) 1 o.info := by
  obtain ⟨times, hread⟩ := nameless_read
  obtain ⟨-, hvalidity⟩ := read_validity booted nameless ⟨2000, 0⟩ 1
  obtain ⟨hvalid, -, hpassed, -⟩ := hvalidity _ hread
  have hinvalid : (booted.observed nameless 1 (Status.running 1 0 "worker").line 2570
      times).info.isValid = false := by
    rw [Bool.eq_false_iff, Ne, hvalid]
    exact fun h => nameless_usable.2 h.2
  exact ⟨_, hread, hinvalid, hpassed hinvalid⟩

/-- Its status line is usable, and yet it is not valid. It is not missing either: its threads and
its processor time are told. -/
theorem usable_not_valid : booted.Usable nameless 1 ∧
    ∃ o, booted.read nameless ⟨2000, 0⟩ 1 = .ok o ∧ o.info.isValid = false ∧
      o ≠ .missing 1 ∧ o.info.threads = 1 ∧ o.cpuMillis = some 2570 := by
  obtain ⟨times, hread⟩ := nameless_read
  refine ⟨nameless_usable.1, _, hread, ?_, ?_, rfl, rfl⟩
  · have hname := (not_congr (name_ne_iff nameless_line)).mpr nameless_usable.2
    simp [observed, Snapshot.isValid, not_not.mp hname]
  · intro hmissing
    cases congrArg (·.cpuMillis) hmissing

end Procfs

end Overseer
