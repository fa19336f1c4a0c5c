import Overseer.Proofs.FileTree.Linkless
import Overseer.Proofs.Log.Failing

/-! A log that is given up and opened again goes on as if nothing had happened, because the size it
tracks is the length of its active file. `Live.reopened` says so of a log in use, and
`restart_invisible` of any two runs of writes with a restart between them. -/

namespace Overseer.Log

namespace RotatingLog

/-- What each of some writes in turn gives. -/
def results (log : RotatingLog) (t : FileTree) : List ByteArray → List (Except FileError Unit)
  | [] => []
  | r :: rest => (log.write t r).result :: results (log.write t r).log (log.write t r).tree rest

theorem results_append (log : RotatingLog) (t : FileTree) (x y : List ByteArray) :
    log.results t (x ++ y) =
      log.results t x ++ (log.writeAll t x).2.results (log.writeAll t x).1 y := by
  induction x generalizing log t with
  | nil => rfl
  | cons r x ih => exact congrArg _ (ih (log.write t r).log (log.write t r).tree)

theorem writeAll_settings (log : RotatingLog) (t : FileTree) (records : List ByteArray) :
    (log.writeAll t records).2.settings = log.settings := by
  induction records generalizing log t with
  | nil => rfl
  | cons r rest ih =>
    exact (ih (log.write t r).log (log.write t r).tree).trans (log.write_settings t r)

theorem openAt_settings {t t₀ : FileTree} {path : String} {maxBytes n : Nat} {log : RotatingLog}
    (h : openAt t path maxBytes n = (t₀, .ok log)) : log.settings = (path, maxBytes, n) := by
  unfold openAt at h
  split at h
  · cases h
  · split at h
    · cases h
    · cases h
      rfl

theorem makeParent_linkless {t : FileTree} (h : t.Linkless) (hsound : t.Sound) (path : String) :
    (makeParent t path).1.Linkless := by
  unfold makeParent
  split
  · exact h.makeDirs hsound _
  · exact h

end RotatingLog

open RotatingLog (openAt makeParent)

/-- Opening a log in use again gives the same log and changes nothing. -/
theorem Shelf.Live.reopened {s : Shelf} {t : FileTree} {log : RotatingLog} (h : s.Live t log) :
    openAt t log.path log.maxBytes log.maxFiles = (t, .ok log) := by
  obtain ⟨id, hx, hhandle, hsize⟩ := h.active
  rw [h.holds.openAt_held log.maxBytes log.maxFiles hx, ← hsize, ← hhandle]

/-- A path leads through none of its own slots: it still leads to something when a directory that
stands in one of them is taken away. -/
def Unwound (t : FileTree) (path : String) (n : Nat) : Prop :=
  ∀ i ≤ n, ∀ l es, t.resolve false (slotPath path i) = .ok (.found l (.dir es)) →
    ∃ target, (t.put l none).resolve false path = .ok target

/-- Where there are no links, a log that opens can be kept at its path if that leads through none of
its slots. -/
theorem Sited.of_opened {t t₀ : FileTree} {path : String} {maxBytes n : Nat} {log : RotatingLog}
    (hsound : t.Sound) (hlinks : t.Linkless) (hopen : openAt t path maxBytes n = (t₀, .ok log))
    (hunwound : Unwound t₀ path n) : Sited t₀ path n := by
  have hmade := RotatingLog.makeParent_sound hsound path
  have hlinks' := RotatingLog.makeParent_linkless hlinks hsound path
  unfold openAt at hopen
  split at hopen
  · cases hopen
  · next t₁ hparent =>
    rw [hparent] at hmade hlinks'
    split at hopen
    · cases hopen
    · next t₂ id happend =>
      cases hopen
      obtain ⟨hfree, l, hl⟩ := hlinks'.resolve_opened hmade happend
      refine ⟨⟨hmade.openAppend happend, _, hl, ?_⟩, fun i _ _ _ => hfree.ne_link, hunwound⟩
      rintro _ _ ⟨⟩
      exact ⟨id, rfl⟩

/-- A log opened where there are no links, at a path that leads through none of its slots, always
knows the length of its active file. Given up after any writes it opens again, and further writes
then do and give what they would have without that. No file has a second name (a hard link). -/
theorem restart_invisible {t t₀ : FileTree} {path : String} {maxBytes n : Nat} {log : RotatingLog}
    (hsound : t.Sound) (hlinks : t.Linkless) (hopen : openAt t path maxBytes n = (t₀, .ok log))
    (hunwound : Unwound t₀ path n) :
    (∀ xs, ∃ bytes, (log.writeAll t₀ xs).1.readFile path = .ok bytes ∧
      (log.writeAll t₀ xs).2.size = bytes.size) ∧
    ∀ xs ys, ∃ t' log', openAt (log.writeAll t₀ xs).1 path maxBytes n = (t', .ok log') ∧
      log'.writeAll t' ys = log.writeAll t₀ (xs ++ ys) ∧
      log.results t₀ xs ++ log'.results t' ys = log.results t₀ (xs ++ ys) := by
  obtain ⟨-, -, s, hlive⟩ := (Sited.of_opened hsound hlinks hopen hunwound).live hsound hopen
  have hused := fun xs => (hlive.writeAll_live xs).1
  have hsettings := fun xs =>
    (log.writeAll_settings t₀ xs).trans (RotatingLog.openAt_settings hopen)
  simp only [RotatingLog.settings, Prod.mk.injEq] at hsettings
  refine ⟨fun xs => ?_, fun xs ys => ?_⟩
  · have hread := (hused xs).readFile_active
    rwa [(hsettings xs).1] at hread
  · have hagain := (hused xs).reopened
    rw [(hsettings xs).1, (hsettings xs).2.1, (hsettings xs).2.2] at hagain
    exact ⟨_, _, hagain, (log.writeAll_append t₀ xs ys).symm, (log.results_append t₀ xs ys).symm⟩

theorem barred_linkless : barred.Linkless := by
  have hactive := FileTree.linkless_empty.create FileTree.sound_empty (d := ["work"])
    (a := "app.log") rfl
  have hsound := (FileTree.sound_empty.create (d := ["work"]) (a := "app.log") rfl rfl).append 0
    "old\n".toUTF8
  have hwritten :
      ((FileTree.empty.create ["work", "app.log"]).1.append 0 "old\n".toUTF8).Linkless := hactive
  exact hwritten.put hsound (d := ["work"]) (a := "app.1.log") rfl Node.kindAt_empty_ne_link

/-- A write that cannot make room, a restart, and another write. -/
theorem restart_invisible_barred :
    barred.Sound ∧ barred.Linkless ∧ openAt barred "app.log" 4 1 = (barred, .ok barredLog) ∧
      Unwound barred "app.log" 1 ∧
      ∃ t' log', openAt (barredLog.writeAll barred ["newer\n".toUTF8]).1 "app.log" 4 1 =
          (t', .ok log') ∧
        log'.writeAll t' ["last\n".toUTF8] =
          barredLog.writeAll barred ["newer\n".toUTF8, "last\n".toUTF8] := by
  obtain ⟨-, hrestart⟩ := restart_invisible barred_sound barred_linkless barred_opened
    barred_sited.apart
  obtain ⟨t', log', hagain, hsame, -⟩ := hrestart ["newer\n".toUTF8] ["last\n".toUTF8]
  exact ⟨barred_sound, barred_linkless, barred_opened, barred_sited.apart, t', log', hagain, hsame⟩

/-! ## A path through an archive's place -/

theorem winding_eq : winding =
    (((FileTree.empty.put ["work", "a.1"] (some (.dir []))).create ["work", "a"]).1.append 0
      "old\n".toUTF8) := rfl

theorem winding_sound : winding.Sound ∧ winding.Linkless := by
  have hdir : (FileTree.empty.put ["work", "a.1"] (some (.dir []))).Sound :=
    FileTree.sound_empty.put_new (d := ["work"]) (a := "a.1") rfl rfl Node.distinct_empty
      Node.kindAt_empty_ne_file
  have hdir' : (FileTree.empty.put ["work", "a.1"] (some (.dir []))).Linkless :=
    FileTree.linkless_empty.put FileTree.sound_empty (d := ["work"]) (a := "a.1") rfl
      Node.kindAt_empty_ne_link
  rw [winding_eq]
  exact ⟨(hdir.create (d := ["work"]) (a := "a") rfl rfl).append 0 _,
    hdir'.create hdir (d := ["work"]) (a := "a") rfl⟩

/-- A log with room for a short record at the path that winds through its first archive's place. -/
def roomyLog : RotatingLog := ⟨"a.1/../a", 9, 2, some 0, 4⟩

/-- What opening the log again makes of the tree in which its path led to nothing. -/
def mended : FileTree := severed.put ["work", "a.1"] (some (.dir []))

theorem resolve_mended (follow : Bool) :
    severed.resolve follow "a.1/.." = .error .notFound ∧
      severed.resolve follow "a.1" = .ok (.absent ["work"] "a.1") ∧
      severed.resolve follow "a.1/../a.1" = .error .notFound ∧
      mended.resolve follow "a.1/.." = .ok (.found ["work"]
        (.dir [("a", .file 0), ("a.2", .dir []), ("a.1", .dir [])])) ∧
      mended.resolve follow "a.1/../a" = .ok (.found ["work", "a"] (.file 0)) := by
  refine ⟨?_, ?_, ?_, ?_, ?_⟩ <;>
    simp +decide [FileTree.resolve, mended, severed, winding, FileTree.put, Node.alter,
      Node.alterEntry, Path.pieces, FileTree.walk, Node.get?, Node.entries, List.lookup_cons]

/-- Opening the log again makes the directory that its path goes through. -/
theorem severed_opened : openAt severed "a.1/../a" 9 2 = (mended, .ok roomyLog) := by
  obtain ⟨hgone, hfree, -, hthere, -⟩ := resolve_mended false
  obtain ⟨-, -, -, hthere', hactive⟩ := resolve_mended true
  have hancestors : FileTree.ancestors "a.1/..".toList = ["a.1/..".toList, "a.1".toList] := by
    decide
  have hmade : makeParent severed "a.1/../a" = (mended, .ok ()) := by
    show severed.makeDirs "a.1/.." = _
    have hagain : mended.ensureDir "a.1/.." = .ok mended := by
      simp only [FileTree.ensureDir, FileTree.makeDir, hthere, FileTree.isDir, hthere']
      rfl
    rw [FileTree.makeDirs, hancestors]
    simp only [FileTree.makeNearest, String.ofList_toList, FileTree.makeDir, hgone, hfree, bind,
      Except.bind]
    show mended.makeEach ["a.1/.."] = _
    rw [FileTree.makeEach, hagain]
    rfl
  rw [openAt, hmade]
  simp only [FileTree.openAppend, hactive]
  rfl

/-- In one run the second write loses its record as the first did; after a restart it succeeds. -/
theorem winding_restart_seen :
    winding.Sound ∧ winding.Linkless ∧
      openAt winding "a.1/../a" 9 2 = (winding, .ok roomyLog) ∧
      openAt (roomyLog.writeAll winding ["newer\n".toUTF8]).1 "a.1/../a" 9 2 =
        (mended, .ok roomyLog) ∧
      roomyLog.results mended ["x\n".toUTF8] = [.ok ()] ∧
      roomyLog.results winding (["newer\n".toUTF8] ++ ["x\n".toUTF8]) =
        [.error .notFound, .error .notFound] := by
  have hfirst : roomyLog.write winding "newer\n".toUTF8 =
      ⟨severed, { roomyLog with handle := none }, .error .notFound, false⟩ :=
    write_winding rfl rfl rfl
  have hopen : severed.openAppend "a.1/../a" = .error .notFound := by
    rw [FileTree.openAppend, (resolve_winding true).2.2.2.2]
    rfl
  have hsecond : ({ roomyLog with handle := none }.write severed "x\n".toUTF8).result =
      .error .notFound := by
    have hroom : ({ roomyLog with handle := none } : RotatingLog).isFullFor "x\n".toUTF8.size =
        false := rfl
    rw [RotatingLog.write, hroom]
    simp only [roomyLog, Bool.false_eq_true, ↓reduceIte, Option.isNone_none, RotatingLog.reopen,
      hopen]
  refine ⟨winding_sound.1, winding_sound.2, winding_opened 9, ?_, rfl, ?_⟩
  · rw [RotatingLog.writeAll, hfirst]
    exact severed_opened
  · rw [List.singleton_append, RotatingLog.results, RotatingLog.results, hfirst, hsecond]
    rfl

end Overseer.Log
