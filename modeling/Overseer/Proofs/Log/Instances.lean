import Overseer.Proofs.Log.Beside
import Overseer.Settings

/-! The logs of different instances in one directory. `numbered_cases` says when two of their files
have one name; `instances_apart`: where none have, neither log sees anything of the other.
`instances_collide` shows what happens otherwise. -/

namespace Overseer.Log

/-! ## Names -/

/-- The name of an instance followed by the number of an archive. -/
def numbered (name : List Char) : Nat → List Char
  | 0 => name
  | i + 1 => name ++ '.' :: Nat.toDigits 10 (i + 1)

/-- What stands before and after the last dot. -/
theorem append_dot_inj {x y d e : List Char} (hd : '.' ∉ d) (he : '.' ∉ e)
    (h : x ++ '.' :: d = y ++ '.' :: e) : x = y ∧ d = e := by
  have hlast : ∀ {z f : List Char}, '.' ∉ f →
      ((z ++ '.' :: f).reverse.takeWhile (· ≠ '.')) = f.reverse := by
    intro z f hf
    rw [List.reverse_append, List.reverse_cons, List.append_assoc,
      List.takeWhile_append_of_pos fun c hc => by
        simpa using fun hdot : c = '.' => hf (hdot ▸ List.mem_reverse.mp hc)]
    simp
  have hde : d = e := by
    have := hlast (z := x) hd
    rw [h, hlast he] at this
    exact (List.reverse_inj.mp this).symm
  subst hde
  exact ⟨List.append_cancel_right h, rfl⟩

theorem dot_not_mem_toDigits (i : Nat) : '.' ∉ Nat.toDigits 10 i := by
  intro hm
  exact absurd (Nat.isDigit_of_mem_toDigits (by decide) (by decide) hm) (by decide)

/-- Two numbered names are the same just if the names and numbers are, or if one name is the other
with a number. -/
theorem numbered_cases {a b : List Char} {i j : Nat} (h : numbered a i = numbered b j) :
    (a = b ∧ i = j) ∨ (i = 0 ∧ 0 < j ∧ a = numbered b j) ∨ (j = 0 ∧ 0 < i ∧ b = numbered a i) := by
  cases i with
  | zero =>
    cases j with
    | zero => exact Or.inl ⟨h, rfl⟩
    | succ j => exact Or.inr (Or.inl ⟨rfl, Nat.succ_pos j, h⟩)
  | succ i =>
    cases j with
    | zero => exact Or.inr (Or.inr ⟨rfl, Nat.succ_pos i, h.symm⟩)
    | succ j =>
      obtain ⟨hab, hij⟩ := append_dot_inj (dot_not_mem_toDigits _) (dot_not_mem_toDigits _) h
      exact Or.inl ⟨hab, toDigits_injective hij⟩

/-- The number of an archive stands before the extension. -/
theorem archiveName_log {name : List Char} (h : name ≠ []) (i : Nat) :
    archiveName (name ++ ".log".toList) i =
      name ++ '.' :: Nat.toDigits 10 i ++ ".log".toList := by
  have hsplit : Path.splitExtension (name ++ ".log".toList) = (name, some "log".toList) := by
    obtain ⟨init, c, rfl⟩ : ∃ init c, name = init ++ [c] :=
      ⟨name.dropLast, name.getLast h, (List.dropLast_concat_getLast h).symm⟩
    simp [Path.splitExtension]
  rw [archiveName, hsplit]
  simp

/-- The files of an instance are named after it and a number. -/
theorem slotName_log {name : List Char} (h : name ≠ []) (i : Nat) :
    slotName (name ++ ".log".toList) i = numbered name i ++ ".log".toList := by
  cases i with
  | zero => rfl
  | succ i => rw [slotName, archiveName_log h, numbered]

/-- Two instances are apart if neither is named as the other with the number of an archive. -/
def NamedApart (a b : String) (n : Nat) : Prop :=
  a ≠ b ∧ ∀ k, 1 ≤ k → k ≤ n → a ≠ b ++ "." ++ toString k ∧ b ≠ a ++ "." ++ toString k

theorem toList_numbered (a : String) (k : Nat) :
    (a ++ "." ++ toString (k + 1)).toList = numbered a.toList (k + 1) := by
  have hdigits : (toString (k + 1)).toList = Nat.toDigits 10 (k + 1) := Nat.toList_repr
  rw [String.toList_append, String.toList_append, hdigits]
  simp [numbered]

theorem NamedApart.slotName_ne {a b : String} {n : Nat} (h : NamedApart a b n) (ha : a ≠ "")
    (hb : b ≠ "") {i j : Nat} (hi : i ≤ n) (hj : j ≤ n) :
    slotName (a ++ ".log").toList i ≠ slotName (b ++ ".log").toList j := by
  have hne : ∀ {x : String}, x ≠ "" → x.toList ≠ [] := fun hx hnil =>
    hx (String.toList_inj.mp hnil)
  rw [String.toList_append, String.toList_append, slotName_log (hne ha), slotName_log (hne hb)]
  intro he
  rcases numbered_cases (List.append_cancel_right he) with
    ⟨hab, -⟩ | ⟨-, hpos, hab⟩ | ⟨-, hpos, hab⟩
  · exact h.1 (String.toList_inj.mp hab)
  · obtain ⟨k, rfl⟩ := Nat.exists_eq_succ_of_ne_zero (Nat.ne_of_gt hpos)
    rw [Nat.succ_eq_add_one, ← toList_numbered] at hab
    exact (h.2 (k + 1) (by omega) hj).1 (String.toList_inj.mp hab)
  · obtain ⟨k, rfl⟩ := Nat.exists_eq_succ_of_ne_zero (Nat.ne_of_gt hpos)
    rw [Nat.succ_eq_add_one, ← toList_numbered] at hab
    exact (h.2 (k + 1) (by omega) hi).2 (String.toList_inj.mp hab)

/-! ## Paths -/

theorem slash_not_mem_log {name : String} (h : '/' ∉ name.toList) :
    '/' ∉ (name ++ ".log").toList := by
  rw [String.toList_append, List.mem_append]
  rintro (hm | hm)
  · exact h hm
  · exact absurd hm (by decide)

/-- The paths of instance logs differ in their last piece only. -/
theorem pieces_instancePath (logs : LogSettings) :
    ∃ ps, ∀ name : String, '/' ∉ name.toList →
      Path.pieces (logs.instancePath name).toList = ps ++ [(name ++ ".log").toList] ∧
        Path.isAbsolute (logs.instancePath name).toList = Path.isAbsolute logs.dir.toList := by
  obtain ⟨ps, -, hps⟩ := Path.pieces_join logs.dir.toList
  refine ⟨ps, fun name hslash => ?_⟩
  rw [LogSettings.instancePath, String.toList_ofList]
  exact hps _ (slash_not_mem_log hslash)

theorem plain_log (name : String) : FileTree.Plain (name ++ ".log").toList := by
  have hlength : 4 ≤ (name ++ ".log").toList.length := by
    rw [String.toList_append, List.length_append]
    exact Nat.le_add_left _ _
  refine ⟨fun h => ?_, fun h => ?_, fun h => ?_⟩
  · simp [h] at hlength
  · simp [h] at hlength
  · simp [h] at hlength

/-- The paths of an archive end in its name. -/
theorem getLast?_slotPath {base : String} {ps : List (List Char)} {a : List Char}
    (h : Path.pieces base.toList = ps ++ [a]) (ha : FileTree.Plain a) (i : Nat) :
    (Path.pieces (slotPath base i).toList).getLast? = some (slotName a i) := by
  cases i with
  | zero => rw [slotPath, h, List.getLast?_concat, slotName]
  | succ i => rw [slotPath, pieces_archivePath h ha, List.getLast?_concat, slotName]

/-- Instances that are apart have no path in common. -/
theorem NamedApart.slotPath_ne {a b : String} {n : Nat} (h : NamedApart a b n) (ha : a ≠ "")
    (hb : b ≠ "") (hslash : '/' ∉ a.toList) (hslash' : '/' ∉ b.toList) (logs : LogSettings)
    {i j : Nat} (hi : i ≤ n) (hj : j ≤ n) :
    slotPath (logs.instancePath a) i ≠ slotPath (logs.instancePath b) j := by
  obtain ⟨ps, hps⟩ := pieces_instancePath logs
  have hlast := getLast?_slotPath (hps a hslash).1 (plain_log a) i
  have hlast' := getLast?_slotPath (hps b hslash').1 (plain_log b) j
  intro he
  rw [he, hlast'] at hlast
  exact h.slotName_ne ha hb hi hj (Option.some.inj hlast).symm

/-! ## Logs -/

theorem abreast_opened (logs : LogSettings) {a b : String} {n : Nat} (h : NamedApart a b n)
    (ha : a ≠ "") (hb : b ≠ "") (hslash : '/' ∉ a.toList) (hslash' : '/' ∉ b.toList)
    {t t₁ t₂ : FileTree} {maxBytes maxBytes' : Nat} {log log' : RotatingLog} (hsound : t.Sound)
    (hsited : Sited t₁ (logs.instancePath a) n)
    (hopen : RotatingLog.openAt t (logs.instancePath a) maxBytes n = (t₁, .ok log))
    (hsited' : Sited t₁ (logs.instancePath b) n)
    (hopen' : RotatingLog.openAt t₁ (logs.instancePath b) maxBytes' n = (t₂, .ok log')) :
    log.path = logs.instancePath a ∧ log.maxFiles = n ∧ log'.path = logs.instancePath b ∧
      log'.maxFiles = n ∧ ∃ s s', Shelf.Abreast s s' log log' t₂ := by
  obtain ⟨ps, hps⟩ := pieces_instancePath logs
  obtain ⟨hpieces, hstart⟩ := hps a hslash
  obtain ⟨hpieces', hstart'⟩ := hps b hslash'
  obtain ⟨hpath, hmax, s, hlive⟩ := hsited.live hsound hopen
  obtain ⟨s', hholds', hfile'⟩ := hsited'.holds (hsited'.placed.getLast?_of_opened hopen')
  have hholds := hlive.holds
  rw [hpath, hmax] at hholds
  obtain ⟨habove, hname⟩ := List.append_inj' (hholds.reached.pieces.symm.trans hpieces) rfl
  obtain ⟨habove', hname'⟩ := List.append_inj' (hholds'.reached.pieces.symm.trans hpieces') rfl
  have hbeside : Shelf.Beside s s' log.path (logs.instancePath b) log.maxFiles n t₁ := by
    rw [hpath, hmax]
    refine .of_holds hholds hholds' (habove'.trans habove.symm) (hstart'.trans hstart.symm) ?_
    intro i hi j hj
    rw [(List.cons.inj hname).1, (List.cons.inj hname').1]
    exact h.slotName_ne ha hb hi hj
  obtain ⟨hpath', hmax', habreast⟩ := Shelf.Abreast.opened hlive hbeside hfile' hopen'
  exact ⟨hpath, hmax, hpath', hmax', s, s', habreast⟩

/-- Instances that are apart have no path in common. Their logs, opened in a directory that may be
missing at first, where no slot is a link and the way to the directory leads through none, may be
written to in any order: the files of each are those that it has after its own writes alone, and no
write to one changes a slot of the other. No file has a second name (a hard link), in particular
none that would be a slot of both. -/
theorem instances_apart (logs : LogSettings) {a b : String} {n : Nat} (h : NamedApart a b n)
    (ha : a ≠ "") (hb : b ≠ "") (hslash : '/' ∉ a.toList) (hslash' : '/' ∉ b.toList) :
    (∀ i ≤ n, ∀ j ≤ n,
      slotPath (logs.instancePath a) i ≠ slotPath (logs.instancePath b) j) ∧
    ∀ t t₁ t₂ maxBytes maxBytes' log log', t.Sound →
      RotatingLog.openAt t (logs.instancePath a) maxBytes n = (t₁, .ok log) →
      Sited t₁ (logs.instancePath a) n → Sited t₁ (logs.instancePath b) n →
      RotatingLog.openAt t₁ (logs.instancePath b) maxBytes' n = (t₂, .ok log') →
      ∀ turns t' logA logB, log.writeBoth log' t₂ turns = (t', logA, logB) →
        (∀ i ≤ n, fileAt t' (slotPath (logs.instancePath a) i) =
          fileAt (log.writeAll t₂ (turns.filterMap Sum.getLeft?)).1
            (slotPath (logs.instancePath a) i)) ∧
        (∀ i ≤ n, fileAt t' (slotPath (logs.instancePath b) i) =
          fileAt (log'.writeAll t₂ (turns.filterMap Sum.getRight?)).1
            (slotPath (logs.instancePath b) i)) ∧
        ∀ record, ∀ i ≤ n,
          SameAt t' (logA.write t' record).tree (slotPath (logs.instancePath b) i) ∧
            SameAt t' (logB.write t' record).tree (slotPath (logs.instancePath a) i) := by
  refine ⟨fun i hi j hj => h.slotPath_ne ha hb hslash hslash' logs hi hj, ?_⟩
  intro t t₁ t₂ maxBytes maxBytes' log log' hsound hopen hsited hsited' hopen' turns t' logA logB
    hrun
  obtain ⟨hpath, hmax, hpath', hmax', s, s', habreast⟩ :=
    abreast_opened logs h ha hb hslash hslash' hsound hsited hopen hsited' hopen'
  -- The writes seen from the second log are the same ones, with the sides exchanged.
  have hswapped := log.writeBoth_swap log' t₂ turns
  have hrights : (turns.map Sum.swap).filterMap Sum.getLeft? = turns.filterMap Sum.getRight? := by
    have hside : Sum.getLeft? ∘ Sum.swap =
        (Sum.getRight? : ByteArray ⊕ ByteArray → Option ByteArray) := by
      funext turn
      cases turn <;> rfl
    rw [List.filterMap_map, hside]
  obtain ⟨hend, hpathA, hmaxA, hfiles⟩ := habreast.run turns
  obtain ⟨-, hpathB, hmaxB, hfiles'⟩ := habreast.symm.run (turns.map Sum.swap)
  rw [hswapped] at hpathB hmaxB hfiles'
  rw [hrun] at hend hpathA hmaxA hfiles hpathB hmaxB hfiles'
  simp only at hend hpathA hmaxA hfiles hpathB hmaxB hfiles'
  rw [hpath] at hpathA hfiles
  rw [hmax] at hmaxA hfiles
  rw [hpath', hrights] at hfiles'
  rw [hpath'] at hpathB
  rw [hmax'] at hmaxB hfiles'
  refine ⟨hfiles, hfiles', fun record i hi => ⟨?_, ?_⟩⟩
  · have hsame := hend.sameAt record (i := i) (by rw [hmaxB]; exact hi)
    rw [hpathB] at hsame
    exact hsame
  · have hsame := hend.symm.sameAt record (i := i) (by rw [hmaxA]; exact hi)
    rw [hpathA] at hsame
    exact hsame

/-- Logs in the working directory. -/
def localLogs : LogSettings := { dir := "" }

/-- The log of one instance. -/
def oneLog : FileTree := (FileTree.empty.create ["work", "app.log"]).1

/-- Beside it the log of another, whose name ends in a number that no archive has. -/
def twoLogs : FileTree := (oneLog.create ["work", "app.2.log"]).1

theorem oneLog_sited : Sited oneLog "app.log" 1 ∧ Sited oneLog "app.2.log" 1 := by
  have hsound : oneLog.Sound := FileTree.sound_empty.create (d := ["work"]) (a := "app.log") rfl rfl
  constructor
  · refine (Ready.of_name hsound (Shelf.reached_of_name hsound "app.log"
      ⟨by decide, by decide, by decide⟩ (by decide) (by decide) (by decide)) ?_).sited
    intro i hi k hk
    match i, hi with
    | 0, _ =>
      cases hk
      exact ⟨0, rfl⟩
    | 1, _ => cases hk
  · refine (Ready.of_name hsound (Shelf.reached_of_name hsound "app.2.log"
      ⟨by decide, by decide, by decide⟩ (by decide) (by decide) (by decide)) ?_).sited
    intro i hi k hk
    match i, hi with
    | 0, _ => cases hk
    | 1, _ => cases hk

theorem oneLog_opened :
    RotatingLog.openAt FileTree.empty "app.log" 4 1 =
      (oneLog, .ok ⟨"app.log", 4, 1, some 0, 0⟩) := by
  have hmade : RotatingLog.makeParent FileTree.empty "app.log" = (FileTree.empty, .ok ()) := rfl
  rw [RotatingLog.openAt, hmade]
  simp +decide [FileTree.openAppend, FileTree.resolve, oneLog, FileTree.empty, Path.pieces,
    FileTree.walk, Node.get?, Node.entries, FileTree.size, FileTree.bytes,
    FileTree.create, FileTree.put]

theorem twoLogs_opened :
    RotatingLog.openAt oneLog "app.2.log" 4 1 =
      (twoLogs, .ok ⟨"app.2.log", 4, 1, some 1, 0⟩) := by
  have hmade : RotatingLog.makeParent oneLog "app.2.log" = (oneLog, .ok ()) := rfl
  rw [RotatingLog.openAt, hmade]
  simp +decide [FileTree.openAppend, FileTree.resolve, oneLog, twoLogs, FileTree.empty,
    Path.pieces, FileTree.walk, Node.get?, Node.entries, List.lookup_cons, FileTree.size,
    FileTree.bytes, FileTree.create, FileTree.put, Node.alter, Node.alterEntry]

theorem instances_apart_numbered :
    NamedApart "app" "app.2" 1 ∧ FileTree.empty.Sound ∧
      RotatingLog.openAt FileTree.empty (localLogs.instancePath "app") 4 1 =
        (oneLog, .ok ⟨"app.log", 4, 1, some 0, 0⟩) ∧
      Sited oneLog (localLogs.instancePath "app") 1 ∧
      Sited oneLog (localLogs.instancePath "app.2") 1 ∧
      RotatingLog.openAt oneLog (localLogs.instancePath "app.2") 4 1 =
        (twoLogs, .ok ⟨"app.2.log", 4, 1, some 1, 0⟩) ∧
      ∀ turns, ∀ i ≤ 1,
        fileAt (RotatingLog.writeBoth ⟨"app.log", 4, 1, some 0, 0⟩ ⟨"app.2.log", 4, 1, some 1, 0⟩
            twoLogs turns).1 (slotPath (localLogs.instancePath "app") i) =
          fileAt (RotatingLog.writeAll ⟨"app.log", 4, 1, some 0, 0⟩ twoLogs
            (turns.filterMap Sum.getLeft?)).1 (slotPath (localLogs.instancePath "app") i) := by
  have hapart : NamedApart "app" "app.2" 1 := by
    refine ⟨by decide, fun k hk hk' => ?_⟩
    obtain rfl : k = 1 := by omega
    decide
  obtain ⟨-, hlogs⟩ := instances_apart localLogs hapart (by decide) (by decide) (by decide)
    (by decide)
  exact ⟨hapart, FileTree.sound_empty, oneLog_opened, oneLog_sited.1, oneLog_sited.2,
    twoLogs_opened, fun turns => (hlogs _ _ _ _ _ _ _ FileTree.sound_empty oneLog_opened
      oneLog_sited.1 oneLog_sited.2 twoLogs_opened turns _ _ _ rfl).1⟩

/-! ## Why the instances have to be apart -/

/-- The log of one instance stands where another has its archive. -/
def crowded : FileTree :=
  ⟨.dir [("work", .dir [("app.log", .file 0), ("app.1.log", .file 1)])],
    #["one\n".toUTF8, "two\n".toUTF8], ["work"]⟩

/-- The log of one instance is a link to that of another. -/
def linked : FileTree :=
  ⟨.dir [("work", .dir [("app.log", .file 0), ("web.log", .link "app.log")])],
    #["one\n".toUTF8], ["work"]⟩

/-- The logs of two instances beside a directory that stands where one has its archive. -/
def crossed : FileTree :=
  ⟨.dir [("work", .dir [("app.1.log", .dir []), ("app.log", .file 0), ("web.log", .file 1)])],
    #["one\n".toUTF8, "two\n".toUTF8], ["work"]⟩

/-- A rotation of one log takes the place of the other and what was written there. -/
theorem crowded_loses :
    RotatingLog.openAt crowded "app.log" 4 1 = (crowded, .ok ⟨"app.log", 4, 1, some 0, 4⟩) ∧
      crowded.readFile "app.1.log" = .ok "two\n".toUTF8 ∧
      (RotatingLog.write ⟨"app.log", 4, 1, some 0, 4⟩ crowded "three\n".toUTF8).tree.readFile
        "app.1.log" = .ok "one\n".toUTF8 := by
  have hmade : RotatingLog.makeParent crowded "app.log" = (crowded, .ok ()) := rfl
  have harchive : archivePath "app.log" 1 = "app.1.log" := rfl
  refine ⟨?_, ?_, ?_⟩
  · rw [RotatingLog.openAt, hmade]
    simp +decide [FileTree.openAppend, FileTree.resolve, crowded, Path.pieces, FileTree.walk,
      Node.get?, Node.entries, FileTree.size, FileTree.bytes]
  · simp +decide [FileTree.readFile, FileTree.resolve, crowded, Path.pieces, FileTree.walk,
      Node.get?, Node.entries, List.lookup_cons, FileTree.bytes, bind, Except.bind]
  · simp +decide [RotatingLog.write, RotatingLog.rotate, RotatingLog.shift, FileTree.pathExists,
      slotPath, harchive, FileTree.resolve, crowded, Path.pieces, FileTree.walk, Node.get?,
      Node.entries, List.lookup_cons, RotatingLog.clearSlot, FileTree.removeFile, FileTree.rename,
      FileTree.put, Node.alter, Node.alterEntry, RotatingLog.reopen, FileTree.openAppend,
      FileTree.create, RotatingLog.appendRecord, FileTree.append, FileTree.readFile, FileTree.bytes,
      bind, Except.bind]

/-- What is written to one log goes to the file of the other. -/
theorem linked_mixes :
    RotatingLog.openAt linked "web.log" 64 1 = (linked, .ok ⟨"web.log", 64, 1, some 0, 4⟩) ∧
      (RotatingLog.write ⟨"web.log", 64, 1, some 0, 4⟩ linked "two\n".toUTF8).tree.readFile
        "app.log" = .ok ("one\n".toUTF8 ++ "two\n".toUTF8) := by
  have hmade : RotatingLog.makeParent linked "web.log" = (linked, .ok ()) := rfl
  refine ⟨?_, ?_⟩
  · rw [RotatingLog.openAt, hmade]
    simp +decide [FileTree.openAppend, FileTree.resolve, linked, Path.pieces, FileTree.walk,
      Node.get?, Node.entries, List.lookup_cons, FileTree.maxLinks, FileTree.size, FileTree.bytes]
  · simp +decide [RotatingLog.write, RotatingLog.appendRecord, FileTree.append, FileTree.readFile,
      FileTree.resolve, linked, Path.pieces, FileTree.walk, Node.get?, Node.entries,
      FileTree.bytes, bind, Except.bind]

/-- With the directory named through an archive's place, a rotation of one log takes the other from
its path. -/
theorem crossed_hides :
    RotatingLog.openAt crossed "app.1.log/../app.log" 4 2 =
        (crossed, .ok ⟨"app.1.log/../app.log", 4, 2, some 0, 4⟩) ∧
      crossed.readFile "app.1.log/../web.log" = .ok "two\n".toUTF8 ∧
      (RotatingLog.write ⟨"app.1.log/../app.log", 4, 2, some 0, 4⟩ crossed
        "three\n".toUTF8).tree.readFile "app.1.log/../web.log" = .error .notFound := by
  have hparent : ∀ follow, crossed.resolve follow "app.1.log/.." = .ok (.found ["work"]
      (.dir [("app.1.log", .dir []), ("app.log", .file 0), ("web.log", .file 1)])) := by
    intro follow
    simp +decide [FileTree.resolve, crossed, Path.pieces, FileTree.walk, Node.get?, Node.entries]
  have hmade : RotatingLog.makeParent crossed "app.1.log/../app.log" = (crossed, .ok ()) :=
    FileTree.makeDirs_of_found (hparent true) (hparent false)
  have harchive : archivePath "app.1.log/../app.log" 1 = "app.1.log/../app.1.log" ∧
      archivePath "app.1.log/../app.log" 2 = "app.1.log/../app.2.log" := ⟨rfl, rfl⟩
  refine ⟨?_, ?_, ?_⟩
  · rw [RotatingLog.openAt, hmade]
    simp +decide [FileTree.openAppend, FileTree.resolve, crossed, Path.pieces, FileTree.walk,
      Node.get?, Node.entries, List.lookup_cons, FileTree.size, FileTree.bytes]
  · simp +decide [FileTree.readFile, FileTree.resolve, crossed, Path.pieces, FileTree.walk,
      Node.get?, Node.entries, List.lookup_cons, FileTree.bytes, bind, Except.bind]
  · simp +decide [RotatingLog.write, RotatingLog.rotate, RotatingLog.shift, FileTree.pathExists,
      slotPath, harchive, FileTree.resolve, crossed, Path.pieces, FileTree.walk, Node.get?,
      Node.entries, List.lookup_cons, RotatingLog.clearSlot, FileTree.removeFile, FileTree.rename,
      FileTree.put, Node.alter, Node.alterEntry, RotatingLog.reopen, FileTree.openAppend,
      FileTree.readFile, bind, Except.bind]

/-- Two names are not enough for two logs. The archive of one instance may have the path of the log
of another, which it then replaces; a log may be a link to another; and a log whose directory is
named through an archive's place is gone from its path when that archive moves. -/
theorem instances_collide :
    ("app" ≠ "app.1" ∧
      slotPath (localLogs.instancePath "app") 1 = slotPath (localLogs.instancePath "app.1") 0 ∧
      RotatingLog.openAt crowded "app.log" 4 1 = (crowded, .ok ⟨"app.log", 4, 1, some 0, 4⟩) ∧
      crowded.readFile "app.1.log" = .ok "two\n".toUTF8 ∧
      (RotatingLog.write ⟨"app.log", 4, 1, some 0, 4⟩ crowded "three\n".toUTF8).tree.readFile
        "app.1.log" = .ok "one\n".toUTF8) ∧
    (NamedApart "app" "web" 1 ∧
      RotatingLog.openAt linked "web.log" 64 1 = (linked, .ok ⟨"web.log", 64, 1, some 0, 4⟩) ∧
      (RotatingLog.write ⟨"web.log", 64, 1, some 0, 4⟩ linked "two\n".toUTF8).tree.readFile
        "app.log" = .ok ("one\n".toUTF8 ++ "two\n".toUTF8)) ∧
    NamedApart "app" "web" 2 ∧
      RotatingLog.openAt crossed "app.1.log/../app.log" 4 2 =
        (crossed, .ok ⟨"app.1.log/../app.log", 4, 2, some 0, 4⟩) ∧
      crossed.readFile "app.1.log/../web.log" = .ok "two\n".toUTF8 ∧
      (RotatingLog.write ⟨"app.1.log/../app.log", 4, 2, some 0, 4⟩ crossed
        "three\n".toUTF8).tree.readFile "app.1.log/../web.log" = .error .notFound := by
  have hapart : ∀ n ≤ 2, NamedApart "app" "web" n := by
    refine fun n hn => ⟨by decide, fun k hk hk' => ?_⟩
    obtain rfl | rfl : k = 1 ∨ k = 2 := by omega
    · decide
    · decide
  exact ⟨⟨by decide, rfl, crowded_loses⟩, ⟨hapart 1 (by decide), linked_mixes⟩,
    hapart 2 (by decide), crossed_hides⟩

end Overseer.Log
