import Overseer.Proofs.FileTree.Shuffled
import Overseer.Proofs.Monitor.Unordered
import Overseer.Proofs.Source.Validity

/-! Processes as two directories tell them that differ in the order of their listings only.
`listing_order`: a process has the same children in both, and polls fail over both or report the
same. What a process has for children is told by `ListsChildren` without any order. -/

namespace Overseer.Procfs

open Monitor (SameProcess Agree SameTree SameFamily)

variable {p : Procfs} {t t' : FileTree} {pid : Pid}

/-! ## One process -/

section Files

variable (h : t.Shuffled t')

include h

theorem readText?_shuffled (path : String) : readText? t' path = readText? t path := by
  rw [readText?, FileTree.readFile_shuffled h, readText?]

theorem statLine?_shuffled (pid : Pid) : p.statLine? t' pid = p.statLine? t pid := by
  rw [statLine?, readText?_shuffled h, statLine?]

theorem openAt_shuffled (root : String) (host : Option UInt64) (ticks page : Int64) :
    openAt t' root host ticks page = openAt t root host ticks page := by
  rw [openAt, bootSeconds?, readText?_shuffled h, openAt, bootSeconds?]

theorem read_shuffled (now : Timestamp) (pid : Pid) : p.read t' now pid = p.read t now pid := by
  unfold read
  simp only [statLine?_shuffled h, name_congr (readText?_shuffled h _),
    command_congr (FileTree.readFile_shuffled h _), ioCounters_congr (readText?_shuffled h _)]

end Files

/-- The time of reading decides nothing but the time since the start. -/
theorem times_together (p : Procfs) (now now' : Timestamp) (s : StatLine) :
    Together (fun r r' => r.1 = r'.1) (p.times now s) (p.times now' s) := by
  unfold times
  cases p.bootSeconds with
  | none => exact .done rfl
  | some boot =>
    dsimp only
    cases addChecked boot (s.startTicks / p.ticksPerSecond) with
    | error e => exact .failed e e
    | ok seconds =>
      refine .done ?_
      unfold startAndUptime
      split <;> rfl

theorem read_together (p : Procfs) (t : FileTree) (now now' : Timestamp) (pid : Pid) :
    Together SameProcess (p.read t now pid) (p.read t now' pid) := by
  unfold read
  split
  · exact .done ⟨rfl, rfl⟩
  · cases p.statLine? t pid with
    | none => exact .done ⟨rfl, rfl⟩
    | some s =>
      have htimes := times_together p now now' s
      dsimp only
      generalize p.times now s = r at htimes ⊢
      generalize p.times now' s = r' at htimes ⊢
      cases p.cpuMillis s with
      | error e => exact .failed e e
      | ok cpu =>
        cases htimes with
        | failed e e' => exact .failed e e'
        | @done times times' hstart =>
          obtain ⟨startedAt, uptime⟩ := times
          obtain ⟨startedAt', uptime'⟩ := times'
          obtain rfl : startedAt = startedAt' := hstart
          exact .done ⟨rfl, rfl⟩

/-! ## Children -/

/-- The ids met, and the ids kept, are those of a list, each kept once. -/
structure Noted (pids : List Pid) (r : PidSet × List Pid) : Prop where
  met : ∀ c, c ∈ r.1 ↔ c ∈ pids
  kept : ∀ c, c ∈ r.2 ↔ c ∈ pids
  nodup : r.2.Nodup

theorem Noted.step {pids : List Pid} {r : PidSet × List Pid} (h : Noted pids r) (p : Pid) :
    Noted (pids ++ [p]) (if p ∈ r.1 then r else (r.1.insert p, p :: r.2)) := by
  by_cases hp : p ∈ r.1
  · have hmem (c : Pid) : c ∈ pids ↔ c ∈ pids ++ [p] := by
      constructor
      · exact List.mem_append_left [p]
      · intro hc
        rcases List.mem_append.mp hc with hc | hc
        · exact hc
        · exact List.mem_singleton.mp hc ▸ (h.met p).mp hp
    rw [if_pos hp]
    exact ⟨fun c => (h.met c).trans (hmem c), fun c => (h.kept c).trans (hmem c), h.nodup⟩
  · have hnew : p ∉ r.2 := fun hmem => hp ((h.met p).mpr ((h.kept p).mp hmem))
    rw [if_neg hp]
    refine ⟨fun c => ?_, fun c => ?_, List.nodup_cons.mpr ⟨hnew, h.nodup⟩⟩
    · rw [Std.TreeSet.mem_insert, Std.LawfulEqCmp.compare_eq_iff_eq, h.met, List.mem_append,
        List.mem_singleton, eq_comm, or_comm]
    · rw [List.mem_cons, h.kept, List.mem_append, List.mem_singleton, or_comm]

theorem noted_distinct (pids : List Pid) :
    Noted pids (pids.foldl (fun (seen, out) p =>
      if p ∈ seen then (seen, out) else (seen.insert p, p :: out)) (∅, [])) := by
  induction pids using List.reverseRecOn with
  | nil => exact ⟨by simp, by simp, List.nodup_nil⟩
  | append_singleton pids p ih =>
    rw [List.foldl_append]
    exact ih.step p

theorem nodup_distinct (pids : List Pid) : (distinct pids).Nodup :=
  List.nodup_reverse.mpr (noted_distinct pids).nodup

theorem mem_distinct (pids : List Pid) (c : Pid) : c ∈ distinct pids ↔ c ∈ pids := by
  rw [distinct, List.mem_reverse]
  exact (noted_distinct pids).kept c

/-- A thread of the process has a readable list of children, and this is its text. -/
def ListedBy (p : Procfs) (t : FileTree) (pid : Pid) (text : List Char) : Prop :=
  ∃ names n, t.list (below (p.directory pid) "task") = .ok names ∧ n ∈ names ∧
    readText? t (below (below (below (p.directory pid) "task") n) "children") = some text

/-- What the children of a process are: none, if the process is not there; otherwise, each once, the
ids in the lists of its threads; only if no list can be read, in ascending order, the processes of
the directory whose status lines name it as their parent. -/
structure ListsChildren (p : Procfs) (t : FileTree) (pid : Pid) (pids : List Pid) : Prop where
  absent : pid = 0 ∨ t.pathExists (p.directory pid) = false → pids = []
  threads : 0 < pid → t.pathExists (p.directory pid) = true → (∃ text, p.ListedBy t pid text) →
    pids.Nodup ∧ ∀ c, c ∈ pids ↔ ∃ text word, p.ListedBy t pid text ∧ word ∈ Text.words text ∧
      Text.unsigned32? word = some c
  table : 0 < pid → t.pathExists (p.directory pid) = true → (¬ ∃ text, p.ListedBy t pid text) →
    pids = p.childrenFromScan t pid ∧ pids.Pairwise (· ≤ ·) ∧ ∀ c, c ∈ pids ↔ p.Scanned t pid c

theorem mem_lists_iff {names : List String}
    (hlist : t.list (below (p.directory pid) "task") = .ok names) (text : List Char) :
    text ∈ names.filterMap (fun n => readText? t
      (below (below (below (p.directory pid) "task") n) "children")) ↔ p.ListedBy t pid text := by
  rw [List.mem_filterMap]
  constructor
  · rintro ⟨n, hn, htext⟩
    exact ⟨names, n, hlist, hn, htext⟩
  · rintro ⟨names', n, hlist', hn, htext⟩
    obtain rfl : names = names' := Except.ok.inj (hlist.symm.trans hlist')
    exact ⟨n, hn, htext⟩

theorem childrenFromTasks?_eq_none (h : ¬ ∃ text, p.ListedBy t pid text) :
    p.childrenFromTasks? t pid = none := by
  unfold childrenFromTasks?
  dsimp only
  cases hlist : t.list (below (p.directory pid) "task") with
  | error e => rfl
  | ok names =>
    have hlisted := mem_lists_iff hlist
    have hnone := List.eq_nil_iff_forall_not_mem.mpr fun text hmem =>
      h ⟨text, (hlisted text).mp hmem⟩
    dsimp only
    rw [hnone]
    rfl

theorem childrenFromTasks?_eq_some (h : ∃ text, p.ListedBy t pid text) :
    ∃ pids, p.childrenFromTasks? t pid = some pids ∧ pids.Nodup ∧ ∀ c, c ∈ pids ↔
      ∃ text word, p.ListedBy t pid text ∧ word ∈ Text.words text ∧
        Text.unsigned32? word = some c := by
  obtain ⟨text, names, n, hlist, hn, htext⟩ := h
  have hlisted := mem_lists_iff hlist
  have hsome := List.isEmpty_eq_false_iff_exists_mem.mpr
    ⟨text, (hlisted text).mpr ⟨names, n, hlist, hn, htext⟩⟩
  unfold childrenFromTasks?
  dsimp only
  rw [hlist]
  dsimp only
  rw [hsome]
  refine ⟨_, rfl, nodup_distinct _, fun c => ?_⟩
  rw [mem_distinct, List.mem_flatMap]
  constructor
  · rintro ⟨text, htext, hc⟩
    obtain ⟨word, hword, hc⟩ := List.mem_filterMap.mp hc
    exact ⟨text, word, (hlisted text).mp htext, hword, hc⟩
  · rintro ⟨text, word, htext, hword, hc⟩
    exact ⟨text, (hlisted text).mpr htext, List.mem_filterMap.mpr ⟨word, hword, hc⟩⟩

theorem children_present (hpid : 0 < pid) (hexists : t.pathExists (p.directory pid) = true) :
    p.children t pid = (p.childrenFromTasks? t pid).getD (p.childrenFromScan t pid) := by
  rw [children, if_neg]
  simp [hexists, UInt32.pos_iff_ne_zero.mp hpid]

theorem listsChildren (p : Procfs) (t : FileTree) (pid : Pid) :
    p.ListsChildren t pid (p.children t pid) where
  absent habsent := by
    rw [children, if_pos]
    simpa using habsent
  threads hpid hexists hlisted := by
    obtain ⟨pids, hpids, hspec⟩ := childrenFromTasks?_eq_some hlisted
    rw [children_present hpid hexists, hpids]
    exact hspec
  table hpid hexists hunlisted := by
    rw [children_present hpid hexists, childrenFromTasks?_eq_none hunlisted]
    exact ⟨rfl, p.childrenFromScan_ascending t pid, p.mem_childrenFromScan_iff t pid⟩

section Children

variable (h : t.Shuffled t')

include h

theorem listedBy_shuffled (pid : Pid) (text : List Char) :
    p.ListedBy t' pid text ↔ p.ListedBy t pid text := by
  unfold ListedBy
  simp only [readText?_shuffled h]
  rcases FileTree.list_shuffled h (below (p.directory pid) "task") with
    ⟨e, herror, herror'⟩ | ⟨names, names', hlist, hlist', hperm⟩
  · simp [herror, herror']
  · simp [hlist, hlist', hperm.mem_iff]

theorem scanned_shuffled (pid c : Pid) : p.Scanned t' pid c ↔ p.Scanned t pid c := by
  unfold Scanned
  simp only [statLine?_shuffled h]
  rcases FileTree.list_shuffled h p.root with
    ⟨e, herror, herror'⟩ | ⟨names, names', hlist, hlist', hperm⟩
  · simp [herror, herror']
  · simp [hlist, hlist', hperm.mem_iff]

theorem mem_children_shuffled (pid c : Pid) : c ∈ p.children t' pid ↔ c ∈ p.children t pid := by
  have hexists := FileTree.pathExists_shuffled h (p.directory pid)
  have hlists := listsChildren p t pid
  have hlists' := listsChildren p t' pid
  by_cases habsent : pid = 0 ∨ t.pathExists (p.directory pid) = false
  · have habsent' : pid = 0 ∨ t'.pathExists (p.directory pid) = false := by rwa [hexists]
    rw [hlists.absent habsent, hlists'.absent habsent']
  · obtain ⟨hpid, hpresent⟩ := not_or.mp habsent
    rw [← Ne, ← UInt32.pos_iff_ne_zero] at hpid
    rw [Bool.not_eq_false] at hpresent
    have hpresent' : t'.pathExists (p.directory pid) = true := by rwa [hexists]
    by_cases hlisted : ∃ text, p.ListedBy t pid text
    · have hlisted' : ∃ text, p.ListedBy t' pid text := by
        simpa only [listedBy_shuffled h] using hlisted
      rw [(hlists.threads hpid hpresent hlisted).2, (hlists'.threads hpid hpresent' hlisted').2]
      simp only [listedBy_shuffled h]
    · have hlisted' : ¬ ∃ text, p.ListedBy t' pid text := by
        simpa only [listedBy_shuffled h] using hlisted
      rw [(hlists.table hpid hpresent hlisted).2.2, (hlists'.table hpid hpresent' hlisted').2.2]
      exact scanned_shuffled h pid c

end Children

theorem agree_shuffled (h : t.Shuffled t') (now now' : Timestamp) :
    Agree (p.source t now) (p.source t' now') where
  read pid := by
    show Together SameProcess (p.read t now pid) (p.read t' now' pid)
    rw [read_shuffled h]
    exact read_together p t now now' pid
  children pid c := (mem_children_shuffled h pid c).symm

/-- Whatever order directories are listed in, the start of the system is the same, and each process
has the same children, which follow from the lists of its threads, or from all status lines where
none of these can be read. Polls from the same samples fail in both orders or report the same
processes, as valid or not, with the same totals, and keep samples of the same ones. -/
theorem listing_order (h : t.Shuffled t') (p : Procfs) (now now' : Timestamp) :
    (∀ root host ticks page, openAt t' root host ticks page = openAt t root host ticks page) ∧
    (∀ pid, p.ListsChildren t pid (p.children t pid) ∧
      p.ListsChildren t' pid (p.children t' pid) ∧
      ∀ c, c ∈ p.children t' pid ↔ c ∈ p.children t pid) ∧
    ∀ (instant instant' : Pid → Nat) (samples : CpuSamples) (root : Pid),
      Together SameTree (Monitor.tree (p.source t now) instant samples root)
        (Monitor.tree (p.source t' now') instant' samples root) ∧
      ∀ descendants, Together SameFamily
        (Monitor.family (p.source t now) instant samples root descendants)
        (Monitor.family (p.source t' now') instant' samples root descendants) := by
  have hagree : Agree (p.source t now) (p.source t' now') := agree_shuffled h now now'
  refine ⟨openAt_shuffled h, fun pid => ?_, fun instant instant' samples root => ?_⟩
  · exact ⟨listsChildren p t pid, listsChildren p t' pid, mem_children_shuffled h pid⟩
  · constructor
    · exact Monitor.tree_unordered hagree (keyed_read p t now) (keyed_read p t' now') instant
        instant' samples root
    · exact Monitor.family_unordered hagree (keyed_read p t now) (keyed_read p t' now') instant
        instant' samples root

/-- A process with two threads, one of which lists a child, the other one more. -/
def threaded (threads : List (String × Node)) : FileTree where
  root := .dir [("work", .dir [("proc", .dir [
    ("1", .dir [("stat", .file 0), ("task", .dir threads)])])])]
  contents := #[(String.ofList (Status.running 1 0 "worker").text).toUTF8, "2 ".toUTF8,
    "3 2 ".toUTF8]
  working := ["work"]

def threads : List (String × Node) :=
  [("1", .dir [("children", .file 1)]), ("7", .dir [("children", .file 2)])]

theorem threaded_shuffled : (threaded threads).Shuffled (threaded threads.reverse) where
  root := by
    have htask := Node.Shuffled.perm (by decide) (List.reverse_perm threads).symm
    have hproc := (htask.entry [("stat", .file 0)] "task" []).entry [] "1" []
    exact (hproc.entry [] "proc" []).entry [] "work" []
  contents := rfl
  working := rfl

theorem threads_list (threads : List (String × Node)) :
    (threaded threads).list "proc/1/task" = .ok (threads.map (·.1)) := by
  simp +decide [FileTree.list, FileTree.resolve, threaded, Path.pieces, FileTree.walk, Node.get?,
    Node.entries, bind, Except.bind, List.lookup_cons]

theorem threads_exists : (threaded threads).pathExists (booted.directory 1) = true := by
  have hdirectory : booted.directory 1 = "proc/1" := by decide
  rw [hdirectory]
  simp +decide [FileTree.pathExists, FileTree.resolve, threaded, Path.pieces, FileTree.walk,
    Node.get?, Node.entries]

theorem threads_read : readText? (threaded threads) "proc/1/task/1/children" =
    some "2 ".toList := by
  have hread : (threaded threads).readFile "proc/1/task/1/children" = .ok "2 ".toUTF8 := by
    simp +decide [FileTree.readFile, FileTree.resolve, threaded, Path.pieces, FileTree.walk,
      threads, Node.get?, Node.entries, FileTree.bytes, bind, Except.bind, List.lookup_cons]
  rw [readText?, hread]
  simp only [Text.decodeUtf8?_toUTF8, Option.map_some]

/-- The second child is one in both orders of the threads. -/
theorem listing_order_threads : (threaded threads).Shuffled (threaded threads.reverse) ∧
    (threaded threads).list "proc/1/task" = .ok ["1", "7"] ∧
    (threaded threads.reverse).list "proc/1/task" = .ok ["7", "1"] ∧
    2 ∈ booted.children (threaded threads.reverse) 1 ∧
    Together SameTree
      (Monitor.tree (booted.source (threaded threads) ⟨2000, 0⟩) (fun _ => 0) ∅ 1)
      (Monitor.tree (booted.source (threaded threads.reverse) ⟨2001, 0⟩) (fun _ => 1) ∅ 1) := by
  obtain ⟨-, hchildren, hpolls⟩ :=
    listing_order threaded_shuffled booted ⟨2000, 0⟩ ⟨2001, 0⟩
  refine ⟨threaded_shuffled, threads_list _, threads_list _, ?_,
    (hpolls (fun _ => 0) (fun _ => 1) ∅ 1).1⟩
  obtain ⟨hlists, -, hsame⟩ := hchildren 1
  have htask : below (booted.directory 1) "task" = "proc/1/task" := by decide
  have hlist : below (below "proc/1/task" "1") "children" = "proc/1/task/1/children" := by decide
  have hlisted : booted.ListedBy (threaded threads) 1 "2 ".toList := by
    refine ⟨["1", "7"], "1", ?_, List.mem_cons_self, ?_⟩
    · rw [htask, threads_list]
      rfl
    · rw [htask, hlist, threads_read]
  rw [hsame, (hlists.threads (by decide) threads_exists ⟨_, hlisted⟩).2]
  exact ⟨_, ['2'], hlisted, by decide, by decide⟩

end Overseer.Procfs
