import Overseer.Proofs.Source.StatLine
import Overseer.Proofs.Source.Validity

/-! The numbers that are read of a process. `reads_exact`: a read is refused just if the processor
time or the start leaves 64 bits on the way; otherwise each number is the one that the status line
stands for, cut off only where memory is beyond 64 bits or a start beyond the calendar. -/

namespace Overseer

namespace Timestamp

def nanoseconds (t : Timestamp) : Int := t.seconds * nanosPerSecond + t.nanos

/-- Whole seconds from one time to another, towards zero. -/
def secondsUntil (start now : Timestamp) : Int :=
  (now.nanoseconds - start.nanoseconds).tdiv nanosPerSecond

/-- A clock shows no leap seconds, and nothing past the end of the calendar. -/
structure OnClock (t : Timestamp) : Prop where
  seconds : t.seconds ≤ maxSeconds
  nanos : t.nanos < nanosPerSecond

/-- Since the start of a second, whole seconds are a difference of seconds. -/
theorem toNat_sub_seconds {now : Timestamp} (h : now.OnClock) (seconds : Int) :
    ((now.seconds - seconds).toNat : Int) = max 0 (secondsUntil ⟨seconds, 0⟩ now) := by
  have hnanos := h.nanos
  have hdifference : now.nanoseconds - nanoseconds ⟨seconds, 0⟩ =
      (now.seconds - seconds) * 1000000000 + now.nanos := by
    simp only [nanoseconds, nanosPerSecond]
    omega
  rw [secondsUntil, hdifference]
  simp only [nanosPerSecond, Nat.cast_ofNat] at hnanos ⊢
  rcases Int.lt_or_le now.seconds seconds with hlt | hle
  · have hneg := Int.tdiv_nonneg
      (show 0 ≤ -((now.seconds - seconds) * 1000000000 + now.nanos) by omega)
      (show (0 : Int) ≤ 1000000000 by decide)
    rw [Int.neg_tdiv] at hneg
    omega
  · rw [Int.tdiv_eq_ediv_of_nonneg (by omega)]
    omega

end Timestamp

namespace StatLine

/-- The number of pages as it stands in a status line, which counts as 0 if it is none. -/
def writtenPages (text : List Char) : Int :=
  match splitName? text with
  | some (_, rest) => (Text.signed? ((Text.words rest).getD 21 [])).getD 0
  | none => 0

/-- Pages below zero are none. -/
theorem toNat_residentPages {text : List Char} {s : StatLine} (h : parse? text = some s) :
    (s.residentPages.toNat : Int) = max (writtenPages text) 0 := by
  have hbound : writtenPages text < Text.signBit := by
    unfold writtenPages
    split
    · next name rest _ =>
      cases hpages : Text.signed? ((Text.words rest).getD 21 []) with
      | none => decide
      | some i => exact Text.signed?_lt hpages
    · decide
  have hpages : s.residentPages = UInt64.ofNat (writtenPages text).toNat := by
    unfold parse? at h
    unfold writtenPages
    split at h
    · cases h
    · next name rest hname =>
      rw [hname]
      dsimp only at h ⊢
      split at h
      · cases h
      · cases h
        rfl
  rw [hpages, UInt64.toNat_ofNat']
  simp only [Text.signBit] at hbound
  omega

end StatLine

namespace Procfs

variable {p : Procfs} {t : FileTree} {now : Timestamp} {pid : Pid} {s : StatLine}

/-! ## Sums and products -/

/-- The ticks of a process leave 64 bits, or their milliseconds do before they are divided, or its
start does. -/
def Overflows (p : Procfs) (s : StatLine) : Prop :=
  UInt64.size ≤ s.userTicks.toNat + s.systemTicks.toNat ∨
    UInt64.size ≤ (s.userTicks.toNat + s.systemTicks.toNat) * 1000 ∨
    ∃ boot, p.bootSeconds = some boot ∧
      UInt64.size ≤ boot.toNat + s.startTicks.toNat / p.ticksPerSecond.toNat

theorem cpuMillis_cases (p : Procfs) (s : StatLine) :
    (UInt64.size ≤ (s.userTicks.toNat + s.systemTicks.toNat) * 1000 ∧
      ∃ e, p.cpuMillis s = .error e) ∨
    ∃ cpu, p.cpuMillis s = .ok cpu ∧
      (s.userTicks.toNat + s.systemTicks.toNat) * 1000 < UInt64.size ∧
      cpu.toNat =
        (s.userTicks.toNat + s.systemTicks.toNat) * 1000 / p.ticksPerSecond.toNat := by
  unfold cpuMillis
  rcases addChecked_cases s.userTicks s.systemTicks with ⟨hover, e, he⟩ | ⟨ticks, hticks, hsum⟩
  · rw [he]
    exact .inl ⟨by omega, e, rfl⟩
  · have hthousand : (1000 : UInt64).toNat = 1000 := rfl
    rw [hticks]
    rcases mulChecked_cases ticks 1000 with ⟨hover, e, he⟩ | ⟨scaled, hscaled, hproduct⟩
    · rw [hsum, hthousand] at hover
      simp only [bind, Except.bind, he]
      exact .inl ⟨hover, e, rfl⟩
    · have hfits := scaled.toNat_lt_size
      rw [hsum, hthousand] at hproduct
      simp only [bind, Except.bind, hscaled]
      refine .inr ⟨_, rfl, by omega, ?_⟩
      rw [UInt64.toNat_div, hproduct]

theorem cpuMillis_error_iff (p : Procfs) (s : StatLine) : (∃ e, p.cpuMillis s = .error e) ↔
    UInt64.size ≤ s.userTicks.toNat + s.systemTicks.toNat ∨
      UInt64.size ≤ (s.userTicks.toNat + s.systemTicks.toNat) * 1000 := by
  rcases cpuMillis_cases p s with ⟨hover, herror⟩ | ⟨cpu, hcpu, hfits, -⟩
  · exact ⟨fun _ => .inr hover, fun _ => herror⟩
  · rw [hcpu]
    constructor
    · rintro ⟨e, he⟩
      cases he
    · intro hover
      omega

theorem toNat_cpuMillis {cpu : UInt64} (h : p.cpuMillis s = .ok cpu) :
    cpu.toNat =
      (s.userTicks.toNat + s.systemTicks.toNat) * 1000 / p.ticksPerSecond.toNat := by
  rcases cpuMillis_cases p s with ⟨-, e, he⟩ | ⟨cpu', hcpu, -, hexact⟩
  · rw [he] at h
    cases h
  · obtain rfl : cpu' = cpu := Except.ok.inj (hcpu.symm.trans h)
    exact hexact

/-- A hundred ticks make a second, so that the division is exact. -/
theorem toNat_cpuMillis_hundred (hticks : p.ticksPerSecond = 100) {cpu : UInt64}
    (h : p.cpuMillis s = .ok cpu) :
    cpu.toNat = 10 * (s.userTicks.toNat + s.systemTicks.toNat) := by
  have hcpu := toNat_cpuMillis h
  rw [hticks, show (100 : UInt64).toNat = 100 from rfl] at hcpu
  omega

theorem times_cases {boot : UInt64} (hboot : p.bootSeconds = some boot) (now : Timestamp)
    (s : StatLine) :
    (UInt64.size ≤ boot.toNat + s.startTicks.toNat / p.ticksPerSecond.toNat ∧
      ∃ e, p.times now s = .error e) ∨
    ∃ seconds : UInt64,
      seconds.toNat = boot.toNat + s.startTicks.toNat / p.ticksPerSecond.toNat ∧
      p.times now s = .ok (startAndUptime now seconds) := by
  have htimes : p.times now s =
      (addChecked boot (s.startTicks / p.ticksPerSecond)).map (startAndUptime now) := by
    rw [times, hboot]
  rw [htimes, ← UInt64.toNat_div]
  rcases addChecked_cases boot (s.startTicks / p.ticksPerSecond) with
    ⟨hover, e, he⟩ | ⟨seconds, hok, hseconds⟩
  · exact .inl ⟨hover, e, by rw [he]; rfl⟩
  · exact .inr ⟨seconds, hseconds, by rw [hok]; rfl⟩

theorem times_error_iff (p : Procfs) (now : Timestamp) (s : StatLine) :
    (∃ e, p.times now s = .error e) ↔
      ∃ boot, p.bootSeconds = some boot ∧
        UInt64.size ≤ boot.toNat + s.startTicks.toNat / p.ticksPerSecond.toNat := by
  cases hboot : p.bootSeconds with
  | none => simp [times, hboot]
  | some boot =>
    rcases times_cases hboot now s with ⟨hover, herror⟩ | ⟨seconds, hseconds, htimes⟩
    · exact ⟨fun _ => ⟨boot, rfl, hover⟩, fun _ => herror⟩
    · have hfits := seconds.toNat_lt_size
      rw [htimes]
      constructor
      · rintro ⟨e, he⟩
        cases he
      · rintro ⟨boot', hboot', hover⟩
        obtain rfl : boot = boot' := Option.some.inj hboot'
        omega

/-- What start and what time since then are told: none where the start of the system is not known or
the calendar has ended before. -/
inductive TellsStart (p : Procfs) (now : Timestamp) (s : StatLine) :
    Option Timestamp → UInt64 → Prop
  | unknown (h : p.bootSeconds = none) : TellsStart p now s none 0
  | beyond {boot : UInt64} (h : p.bootSeconds = some boot)
      (hend : Timestamp.maxSeconds <
        boot.toNat + s.startTicks.toNat / p.ticksPerSecond.toNat) : TellsStart p now s none 0
  | within {boot uptime : UInt64} {start : Timestamp} (h : p.bootSeconds = some boot)
      (hend : boot.toNat + s.startTicks.toNat / p.ticksPerSecond.toNat ≤ Timestamp.maxSeconds)
      (hstart : start = ⟨boot.toNat + s.startTicks.toNat / p.ticksPerSecond.toNat, 0⟩)
      (huptime : (uptime.toNat : Int) = max 0 (start.secondsUntil now)) :
      TellsStart p now s (some start) uptime

theorem startAndUptime_within {seconds : UInt64} (h : (seconds.toNat : Int) ≤ Timestamp.maxSeconds)
    (now : Timestamp) : startAndUptime now seconds =
      (some ⟨seconds.toNat, 0⟩, UInt64.ofNat (now.seconds - seconds.toNat).toNat) := by
  have hstart : Timestamp.of? seconds.toNat 0 = some ⟨seconds.toNat, 0⟩ := by
    rw [Timestamp.of?, if_pos]
    refine ⟨?_, h, .inl (by decide)⟩
    simp only [Timestamp.minSeconds]
    omega
  rw [startAndUptime, hstart]

theorem startAndUptime_beyond {seconds : UInt64} (h : Timestamp.maxSeconds < (seconds.toNat : Int))
    (now : Timestamp) : startAndUptime now seconds = (none, 0) := by
  have hstart : Timestamp.of? seconds.toNat 0 = none := by
    rw [Timestamp.of?, if_neg]
    rintro ⟨-, hle, -⟩
    omega
  rw [startAndUptime, hstart]

theorem tellsStart_of_times {startedAt : Option Timestamp} {uptime : UInt64} (hnow : now.OnClock)
    (h : p.times now s = .ok (startedAt, uptime)) : p.TellsStart now s startedAt uptime := by
  cases hboot : p.bootSeconds with
  | none =>
    rw [times, hboot] at h
    cases h
    exact .unknown hboot
  | some boot =>
    rcases times_cases hboot now s with ⟨-, e, he⟩ | ⟨seconds, hseconds, htimes⟩
    · rw [he] at h
      cases h
    · rw [htimes] at h
      rcases Int.lt_or_le Timestamp.maxSeconds seconds.toNat with hend | hend
      · rw [startAndUptime_beyond hend] at h
        cases h
        exact .beyond hboot (by omega)
      · rw [startAndUptime_within hend] at h
        cases h
        have hlt := hnow.seconds
        refine .within hboot (by omega) (by rw [hseconds]; rfl) ?_
        rw [← Timestamp.toNat_sub_seconds hnow, UInt64.toNat_ofNat']
        simp only [Timestamp.maxSeconds] at hlt
        omega

/-! ## A read -/

theorem read_error_iff (p : Procfs) (t : FileTree) (now : Timestamp) (pid : Pid) :
    (∃ e, p.read t now pid = .error e) ↔
      0 < pid ∧ ∃ s, p.statLine? t pid = some s ∧ p.Overflows s := by
  rw [UInt32.pos_iff_ne_zero]
  by_cases hpid : pid = 0
  · simp [read, hpid]
  · cases hline : p.statLine? t pid with
    | none => simp [read, hpid, hline]
    | some s =>
      have hread : (∃ e, p.read t now pid = .error e) ↔ p.Overflows s := by
        rw [Overflows, ← or_assoc, ← cpuMillis_error_iff p, ← times_error_iff p now]
        cases hcpu : p.cpuMillis s with
        | error e =>
          simp only [read, if_neg hpid, hline, hcpu, bind, Except.bind]
          exact ⟨fun _ => .inl ⟨e, rfl⟩, fun _ => ⟨e, rfl⟩⟩
        | ok cpu =>
          cases htimes : p.times now s with
          | error e =>
            simp only [read, if_neg hpid, hline, hcpu, htimes, bind, Except.bind]
            exact ⟨fun _ => .inr ⟨e, rfl⟩, fun _ => ⟨e, rfl⟩⟩
          | ok times =>
            rw [read_of_line hpid hline hcpu htimes]
            simp
      simp [hpid, hread]

/-! ## The readers by places -/

/-- The status line of a process, read by places. -/
def statLineAt (p : Procfs) (t : FileTree) (pid : Pid) :
    Except StatLine.Fault (Option StatLine) :=
  match readText? t (p.file pid "stat") with
  | none => .ok none
  | some text => StatLine.parseAt text

/-- Those of some processes that name this one as their parent. -/
def childrenAmong (p : Procfs) (t : FileTree) (pid : Pid) :
    List Pid → Except StatLine.Fault (List Pid)
  | [] => .ok []
  | candidate :: rest => do
    let line ← p.statLineAt t candidate
    let found ← childrenAmong p t pid rest
    return match line with
      | some s => if s.parent = pid then candidate :: found else found
      | none => found

def childrenFromScanAt (p : Procfs) (t : FileTree) (pid : Pid) :
    Except StatLine.Fault (List Pid) :=
  match t.list p.root with
  | .error _ => .ok []
  | .ok names =>
    (p.childrenAmong t pid (names.filterMap fun n => Text.unsigned32? n.toList)).map
      (·.mergeSort (· ≤ ·))

/-- The children of a process, where each status line is read by places. -/
def childrenAt (p : Procfs) (t : FileTree) (pid : Pid) : Except StatLine.Fault (List Pid) :=
  if pid = 0 || !t.pathExists (p.directory pid) then .ok []
  else match p.childrenFromTasks? t pid with
    | some pids => .ok pids
    | none => p.childrenFromScanAt t pid

theorem statLineAt_eq (p : Procfs) (t : FileTree) (pid : Pid) :
    p.statLineAt t pid = .ok (p.statLine? t pid) := by
  unfold statLineAt statLine?
  cases readText? t (p.file pid "stat") with
  | none => rfl
  | some text => exact StatLine.parseAt_eq text

theorem childrenAmong_eq (p : Procfs) (t : FileTree) (pid : Pid) (candidates : List Pid) :
    p.childrenAmong t pid candidates = .ok (candidates.filter fun candidate =>
      (p.statLine? t candidate).any (·.parent == pid)) := by
  induction candidates with
  | nil => rfl
  | cons candidate rest ih =>
    rw [childrenAmong, statLineAt_eq, ih, List.filter_cons]
    simp only [bind, Except.bind, pure, Except.pure, Except.ok.injEq]
    cases p.statLine? t candidate with
    | none => simp
    | some s => simp

theorem childrenAt_eq (p : Procfs) (t : FileTree) (pid : Pid) :
    p.childrenAt t pid = .ok (p.children t pid) := by
  have hscan : p.childrenFromScanAt t pid = .ok (p.childrenFromScan t pid) := by
    unfold childrenFromScanAt childrenFromScan
    cases t.list p.root with
    | error e => rfl
    | ok names =>
      dsimp only
      rw [childrenAmong_eq, Except.map]
      refine congrArg (fun found : List Pid => Except.ok (found.mergeSort (· ≤ ·)))
        (List.filter_congr fun candidate _ => ?_)
      cases p.statLine? t candidate with
      | none => rfl
      | some s => rfl
  unfold childrenAt children
  split
  · rfl
  · cases p.childrenFromTasks? t pid with
    | none => exact hscan
    | some pids => rfl

/-- A read is refused just if the process has a usable status line and its ticks, their milliseconds
or its start leave 64 bits. Otherwise a usable line tells the whole milliseconds of its ticks, the
bytes of its pages up to the largest number there is, and the start with the seconds since then if
they are known; with a hundred ticks a second the milliseconds are exact. Neither a status line nor
a search for children is read past its fields or within a character. -/
theorem reads_exact (p : Procfs) (t : FileTree) {now : Timestamp} (hnow : now.OnClock)
    (pid : Pid) :
    ((∃ e, p.read t now pid = .error e) ↔
      0 < pid ∧ ∃ text s, readText? t (p.file pid "stat") = some text ∧
        StatLine.parse? text = some s ∧ p.Overflows s) ∧
    (∀ text s, 0 < pid → readText? t (p.file pid "stat") = some text →
      StatLine.parse? text = some s → ¬ p.Overflows s →
      ∃ o cpu, p.read t now pid = .ok o ∧ o.cpuMillis = some cpu ∧
        cpu.toNat =
          (s.userTicks.toNat + s.systemTicks.toNat) * 1000 / p.ticksPerSecond.toNat ∧
        (p.ticksPerSecond = 100 →
          cpu.toNat = 10 * (s.userTicks.toNat + s.systemTicks.toNat)) ∧
        (o.info.residentBytes.toNat : Int) =
          min (p.pageBytes.toNat * max (StatLine.writtenPages text) 0) (UInt64.size - 1) ∧
        p.TellsStart now s o.info.startedAt o.info.uptime) ∧
    p.statLineAt t pid = .ok (p.statLine? t pid) ∧
    p.childrenAt t pid = .ok (p.children t pid) := by
  refine ⟨?_, fun text s hpid htext hs hfits => ?_, statLineAt_eq p t pid, childrenAt_eq p t pid⟩
  · rw [read_error_iff, exists_comm]
    simp only [statLine?_eq_some_iff, ← exists_and_right, and_assoc]
  have hline : p.statLine? t pid = some s := statLine?_eq_some_iff.mpr ⟨text, htext, hs⟩
  have hpages := StatLine.toNat_residentPages hs
  cases hread : p.read t now pid with
  | error e =>
    obtain ⟨-, s', hline', hover⟩ := (read_error_iff p t now pid).mp ⟨e, hread⟩
    obtain rfl : s = s' := Option.some.inj (hline.symm.trans hline')
    exact absurd hover hfits
  | ok o =>
    obtain ⟨s', cpu, times, hline', hcpu, htimes, rfl⟩ :=
      observed_of_read ⟨hpid, text, s, htext, hs⟩ hread
    obtain rfl : s = s' := Option.some.inj (hline.symm.trans hline')
    refine ⟨_, cpu, rfl, rfl, toNat_cpuMillis hcpu,
      fun hticks => toNat_cpuMillis_hundred hticks hcpu, ?_, tellsStart_of_times hnow htimes⟩
    have hbytes := toNat_mulSaturating s.residentPages p.pageBytes
    have hproduct := Int.natCast_mul p.pageBytes.toNat s.residentPages.toNat
    have hsize : 0 < UInt64.size := by decide
    rw [Nat.mul_comm] at hbytes
    simp only [observed]
    rw [hbytes, ← hpages, ← hproduct]
    omega

/-- Ticks of 2.57 seconds, pages below zero and a start a second after the system's; with the
largest boot time there is, that start is past 64 bits. -/
theorem reads_exact_late :
    Timestamp.OnClock ⟨2000, 500⟩ ∧
    (∃ o cpu, booted.read nameless ⟨2000, 500⟩ 1 = .ok o ∧ o.cpuMillis = some cpu ∧
      cpu.toNat = 2570 ∧ o.info.residentBytes.toNat = 0 ∧ o.info.startedAt = some ⟨1001, 0⟩ ∧
      o.info.uptime.toNat = 999) ∧
    ∃ e, Procfs.read (.usual "proc" (some (-1))) nameless ⟨2000, 500⟩ 1 = .error e := by
  have hnow : Timestamp.OnClock ⟨2000, 500⟩ := ⟨by decide, by decide⟩
  have hs := StatLine.parse?_text (.running 1 0 "worker")
  refine ⟨hnow, ?_, ?_⟩
  · obtain ⟨-, hexact, -⟩ := reads_exact booted nameless hnow 1
    have hfits : ¬ booted.Overflows (Status.running 1 0 "worker").line := by
      rintro (hticks | hmillis | ⟨boot, hboot, hstart⟩)
      · exact absurd hticks (by decide)
      · exact absurd hmillis (by decide)
      · obtain rfl : 1000 = boot := Option.some.inj hboot
        exact absurd hstart (by decide)
    obtain ⟨o, cpu, ho, hcpu, -, hmillis, hbytes, hstart⟩ :=
      hexact _ _ (by decide) nameless_stat hs hfits
    have hpages := StatLine.toNat_residentPages hs
    rw [show (Status.running 1 0 "worker").line.residentPages.toNat = 0 from rfl] at hpages
    rw [← hpages] at hbytes
    refine ⟨o, cpu, ho, hcpu, hmillis rfl, ?_, ?_⟩
    · exact Int.ofNat_inj.mp hbytes
    · generalize o.info.startedAt = startedAt at hstart
      generalize o.info.uptime = uptime at hstart
      cases hstart with
      | unknown h => cases h
      | beyond h hend =>
        cases h
        exact absurd hend (by decide)
      | within h hend hstart huptime =>
        cases h
        subst hstart
        rw [← Timestamp.toNat_sub_seconds hnow] at huptime
        exact ⟨rfl, Int.ofNat_inj.mp huptime⟩
  · obtain ⟨herror, -⟩ := reads_exact (.usual "proc" (some (-1))) nameless hnow 1
    refine herror.mpr ⟨by decide, _, _, nameless_stat, hs, .inr (.inr ⟨-1, rfl, ?_⟩)⟩
    decide

end Procfs

end Overseer
