import Overseer.Proofs.Log.Session
import Overseer.Proofs.Log.Writing

/-! Logs whose archive slots may hold directories. `Sited` says of a path what `Shelf.Holds` needs
of the slots, and `Sited.opened` that a log which opens there is in use; `Sited.live` says this of a
log that had to make its directory first; `Live.writeAll_live`: it stays so. -/

namespace Overseer.Log

open FileTree (Plain)

/-- A path that has been opened to append leads to the file that was opened. -/
theorem Shelf.Holds.held_of_openAppend {s : Shelf} {t t₀ : FileTree} {base : String} {n id : Nat}
    (h : s.Holds t₀ base n) (hsound : t.Sound) (hopen : t.openAppend base = .ok (t₀, id)) :
    s.held base t₀ 0 = some (.file id) := by
  rw [FileTree.openAppend] at hopen
  simp only [h.reached.getLast?_base, false_and, ↓reduceIte] at hopen
  split at hopen
  · cases hopen
  · next hfound =>
    cases hopen
    exact (h.held_of_found (Nat.zero_le n) hfound).1
  · cases hopen
  · next d a habsent =>
    obtain ⟨hd, hfree⟩ := hsound.resolve_absent habsent
    cases hopen
    -- Before the file was there, the path led to the same directory.
    have hreaches : s.Reached (t.root.kindAt · = some ·) t.working base := by
      refine h.reaches.mono fun l k hk hnoFile => ?_
      rcases hsound.intact.kindAt_put hd _ hk with ⟨r, x, -, hx, hr⟩ | ⟨-, hl⟩
      · cases hx
        cases r with
        | nil => exact absurd (Option.some.inj hr).symm (hnoFile _)
        | cons b r => cases hr
      · exact hl
    have hlink : ∀ target, t.root.kindAt (s.slot 0) ≠ some (.link target) := by
      intro target hl
      have hout : ¬ (d ++ [a]) <+: s.slot 0 := by
        rintro ⟨r, hr⟩
        rw [← hr, Node.kindAt, Node.get?_append, Node.kindAt_eq_none_iff.mp hfree] at hl
        cases hl
      apply h.noLink 0 (Nat.zero_le n) h.reached.fits target
      exact (Node.kindAt_alter_beside hsound.intact.distinct d a hd _ hout).trans hl
    have hbase := hreaches.resolve_slot 0 true fun _ target _ => hlink target
    rw [if_pos h.reached.fits] at hbase
    have hentry := Except.ok.inj (habsent.symm.trans hbase)
    unfold FileTree.entryAt at hentry
    split at hentry
    · cases hentry
    · obtain ⟨rfl, rfl⟩ := FileTree.Target.absent.inj hentry
      rw [Shelf.held, if_pos h.reached.fits]
      exact Node.get?_alter_below hsound.intact.distinct _ _ hd _ []

theorem RotatingLog.makeParent_sound {t : FileTree} (h : t.Sound) (path : String) :
    (RotatingLog.makeParent t path).1.Sound := by
  unfold RotatingLog.makeParent
  split
  · exact h.makeDirs _
  · exact h

/-- A log can be kept at this path: it leads to a file or a free name, none of its slots up to
`n` is a link, and it leads through none of them, so that it still leads to something when a
directory in a slot is taken away. -/
structure Sited (t : FileTree) (path : String) (n : Nat) : Prop where
  placed : Placed t path
  noLink : ∀ i ≤ n, ∀ l target, t.resolve false (slotPath path i) ≠ .ok (.found l (.link target))
  apart : ∀ i ≤ n, ∀ l es, t.resolve false (slotPath path i) = .ok (.found l (.dir es)) →
    ∃ target, (t.put l none).resolve false path = .ok target

theorem Ready.sited {t : FileTree} {path : String} {n : Nat} (h : Ready t path n) :
    Sited t path n where
  placed := h.placed
  noLink i hi l target hl := by
    obtain ⟨id, hid⟩ := h.files i hi l _ hl
    cases hid
  apart i hi l es hl := by
    obtain ⟨id, hid⟩ := h.files i hi l _ hl
    cases hid

namespace Sited

variable {t t₀ : FileTree} {path : String} {n maxBytes : Nat} {log : RotatingLog}

/-- What a slot that is there resolves to. -/
private theorem resolve_of_get? {s : Shelf}
    (hs : s.Reached (t.root.kindAt · = some ·) t.working path) {i : Nat} (hfit : s.Fits path i)
    {x : Node} (hx : t.root.get? (s.slot i) = some x) :
    t.resolve false (slotPath path i) = .ok (.found (s.slot i) x) := by
  rw [hs.resolve_slot i false (by simp), if_pos hfit, FileTree.entryAt, ← Shelf.slot, hx]

theorem holds (h : Sited t path n) (hslash : path.toList.getLast? ≠ some '/') :
    ∃ s : Shelf, s.Holds t path n ∧ ∀ x, s.held path t 0 = some x → ∃ id, x = .file id := by
  obtain ⟨s, hs⟩ := h.placed.exists_reached hslash
  refine ⟨s, h.placed.holds hs ?_ ?_, fun x hx => ?_⟩
  · intro i hi hfit target hk
    exact h.noLink i hi _ target (resolve_of_get? hs hfit (Node.kindAt_eq_link_iff.mp hk))
  · intro i hi hfit hk
    obtain ⟨es, hes⟩ := Node.kindAt_eq_dir_iff.mp hk
    exact h.apart i hi _ es (resolve_of_get? hs hfit hes)
  · obtain ⟨target, htarget, hfile⟩ := h.placed.there
    have hbase : t.resolve false path = _ :=
      resolve_of_get? (i := 0) hs hs.fits (Shelf.get?_of_held hx)
    rw [htarget] at hbase
    exact hfile _ _ (Except.ok.inj hbase)

/-- A log that opens at such a path is in use. -/
theorem opened (h : Sited t path n)
    (hopen : RotatingLog.openAt t path maxBytes n = (t₀, .ok log)) :
    log.path = path ∧ log.maxFiles = n ∧ ∃ s : Shelf, s.Live t₀ log ∧ s.Holds t path n := by
  obtain ⟨s, hholds, hfile⟩ := h.holds (h.placed.getLast?_of_opened hopen)
  obtain ⟨hpath, hn, hlive, -⟩ := hholds.opened hfile hopen
  exact ⟨hpath, hn, s, hlive, hholds⟩

/-- A log that has opened, and made its directory if that was missing, is in use if it can be kept
there afterwards. -/
theorem live (h : Sited t₀ path n) (hsound : t.Sound)
    (hopen : RotatingLog.openAt t path maxBytes n = (t₀, .ok log)) :
    log.path = path ∧ log.maxFiles = n ∧ ∃ s : Shelf, s.Live t₀ log := by
  obtain ⟨s, hholds, -⟩ := h.holds (h.placed.getLast?_of_opened hopen)
  have hmade := RotatingLog.makeParent_sound hsound path
  unfold RotatingLog.openAt at hopen
  split at hopen
  · cases hopen
  · next t₁ hparent =>
    rw [hparent] at hmade
    split at hopen
    · cases hopen
    · next t₂ id happend =>
      cases hopen
      exact ⟨rfl, rfl, s, hholds, id, hholds.held_of_openAppend hmade happend, rfl, rfl⟩

/-- A name leads to an entry of the working directory, whatever stands elsewhere. -/
private theorem resolve_name (t : FileTree) (hplain : Plain path.toList)
    (hslash : '/' ∉ path.toList) (hclean : Char.ofNat 0 ∉ path.toList)
    (hsize : path.utf8ByteSize ≤ FileTree.maxNameBytes) :
    t.resolve false path = .ok (FileTree.entryAt t.root t.working path) := by
  have hpath : ¬ FileTree.maxPathBytes < path.utf8ByteSize :=
    Nat.not_lt.mpr (Nat.le_trans hsize (by decide))
  have hnonul : path.toList.contains (Char.ofNat 0) = false := by simpa using hclean
  rw [FileTree.resolve, Path.isAbsolute_of_slash_free hslash, hnonul,
    Path.pieces_of_slash_free hslash]
  simp only [Bool.false_eq_true, ↓reduceIte, hplain.1, hpath]
  rw [FileTree.walk_last t.root false _ _ hplain (by simp), FileTree.lastStep,
    String.ofList_toList, if_neg (Nat.not_lt.mpr hsize)]

/-- A name in the working directory, of a file or free. -/
theorem of_name (h : t.Sound)
    (hs : (⟨[], path.toList, t.working⟩ : Shelf).Reached (t.root.kindAt · = some ·) t.working path)
    (hfile : ∀ x, t.root.get? (t.working ++ [path]) = some x → ∃ id, x = .file id)
    (hlink : ∀ i ≤ n, ∀ target,
      t.root.get? (t.working ++ [String.ofList (slotName path.toList i)]) ≠
        some (.link target)) : Sited t path n := by
  have hslash : '/' ∉ path.toList :=
    Path.slash_free_of_mem_pieces (s := path.toList) (by rw [hs.pieces]; simp)
  have hsize : path.utf8ByteSize ≤ FileTree.maxNameBytes := by
    have hfits := hs.fits.2
    rwa [slotName, String.ofList_toList] at hfits
  have hname := fun t' => resolve_name t' hs.plain hslash hs.clean hsize
  refine ⟨⟨h, _, hname t, fun l x hx => ?_⟩, fun i hi l target hl => ?_,
    fun i hi l es _ => ⟨_, hname (t.put l none)⟩⟩
  · unfold FileTree.entryAt at hx
    split at hx
    · next y hy =>
      obtain ⟨rfl, rfl⟩ := FileTree.Target.found.inj hx
      exact hfile y hy
    · cases hx
  · rw [hs.resolve_slot i false (by simp)] at hl
    split at hl
    · have hentry := Except.ok.inj hl
      unfold FileTree.entryAt at hentry
      split at hentry
      · next y hy =>
        obtain ⟨-, rfl⟩ := FileTree.Target.found.inj hentry
        exact hlink i hi target hy
      · cases hentry
    · cases hl

end Sited

namespace Shelf

variable {s : Shelf} {t : FileTree} {log : RotatingLog}

/-- A run of writes leaves the log in use. -/
theorem Live.writeAll_live (h : s.Live t log) (records : List ByteArray) :
    s.Live (log.writeAll t records).1 (log.writeAll t records).2 ∧
      (log.writeAll t records).2.path = log.path ∧
      (log.writeAll t records).2.maxFiles = log.maxFiles := by
  induction records generalizing t log with
  | nil => exact ⟨h, rfl, rfl⟩
  | cons r rest ih =>
    obtain ⟨hlive, hpath, hmax⟩ := ih (h.write_wrote r).2.1
    exact ⟨hlive, hpath.trans (log.write_path t r), hmax.trans (log.write_maxFiles t r)⟩

end Shelf

end Overseer.Log
