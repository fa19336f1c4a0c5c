import Overseer.Proofs.FileTree.Making
import Overseer.Proofs.Log.SlotMoves

/-! Opening a log whose directory is there. `Ready` asks that its slots are files or free;
`Ready.holds` finds the shelf; `openAt_held` and `openAt_free` say what is opened. -/

namespace Overseer.Log

open FileTree (Plain Leads)

/-- A path that leads to a file, or to a free name in a directory that is there. -/
structure Placed (t : FileTree) (path : String) : Prop where
  sound : t.Sound
  there : ∃ target, t.resolve false path = .ok target ∧
    ∀ l m, target = .found l m → ∃ id, m = .file id

/-- A log at this path has its directory, and its slots up to `n` are files or free. A path that
is too long to follow leads to nothing. As in every sound tree there are no hard links. -/
structure Ready (t : FileTree) (path : String) (n : Nat) : Prop where
  sound : t.Sound
  there : ∃ target, t.resolve false path = .ok target
  files : ∀ i ≤ n, ∀ l m, t.resolve false (slotPath path i) = .ok (.found l m) →
    ∃ id, m = .file id

theorem Ready.placed {t : FileTree} {path : String} {n : Nat} (h : Ready t path n) :
    Placed t path := by
  obtain ⟨target, htarget⟩ := h.there
  refine ⟨h.sound, target, htarget, ?_⟩
  rintro l m rfl
  exact h.files 0 (Nat.zero_le n) l m htarget

namespace Placed

variable {t : FileTree} {path : String}

theorem exists_reached (h : Placed t path) (hslash : path.toList.getLast? ≠ some '/') :
    ∃ s : Shelf, s.Reached (t.root.kindAt · = some ·) t.working path := by
  obtain ⟨target, htarget, hfile⟩ := h.there
  obtain ⟨hclean, hne, hsize, hwalk⟩ := FileTree.walk_of_resolve htarget
  have hlast := Path.getLast?_pieces_ne hne hslash
  obtain ⟨ps, a, d, hpieces, hplain, hleads⟩ :=
    FileTree.leads_of_walk hwalk (h.sound.start_isDir path) hlast hfile
  have hname : (String.ofList a).utf8ByteSize ≤ FileTree.maxNameBytes := by
    rw [hpieces, FileTree.walk_of_leads hleads false hplain (by simp), FileTree.lastStep] at hwalk
    split at hwalk
    · cases hwalk
    · next hname => exact Nat.not_lt.mp hname
  exact ⟨⟨ps, a, d⟩, hpieces, hplain, hclean, ⟨hsize, hname⟩, hleads⟩

/-- The slots of a path can be moved if none of them is a link and the path still leads to
something when a directory in one of them is taken away. -/
theorem holds (h : Placed t path) {s : Shelf} {n : Nat}
    (hs : s.Reached (t.root.kindAt · = some ·) t.working path)
    (hlink : ∀ i ≤ n, s.Fits path i → ∀ target, t.root.kindAt (s.slot i) ≠ some (.link target))
    (hdir : ∀ i ≤ n, s.Fits path i → t.root.kindAt (s.slot i) = some .dir →
      ∃ target, (t.put (s.slot i) none).resolve false path = .ok target) : s.Holds t path n := by
  have hleads := hs.leads.beside hs.plain (fun x => (t.put x none).root)
    (X := fun x => ∃ i ≤ n, s.Fits path i ∧ t.root.kindAt (s.slot i) = some .dir ∧ x = s.slot i)
    ?above ?kinds ?walks
  case above =>
    rintro _ ⟨i, -, -, -, rfl⟩
    exact s.not_slot_above i
  case kinds =>
    rintro _ ⟨i, -, -, -, rfl⟩ y
    exact h.sound.intact.kindAt_remove hs.isDir y
  case walks =>
    rintro _ ⟨i, hi, hfit, hk, rfl⟩
    obtain ⟨target, htarget⟩ := hdir i hi hfit hk
    obtain ⟨-, -, -, hwalk⟩ := FileTree.walk_of_resolve htarget
    rw [hs.pieces] at hwalk
    exact ⟨target, hwalk⟩
  refine ⟨h.sound.intact, { hs with leads := hleads.mono ?_ }, hlink⟩
  -- A directory or link on the way is no slot, and has none above it.
  rintro l k ⟨hk, hbeside⟩ hfree
  refine ⟨hk, ?_⟩
  rintro i hi hfit ⟨r, hr⟩
  have hslot : t.root.kindAt (s.slot i) ≠ some .dir := fun hd =>
    hbeside _ ⟨i, hi, hfit, hd, rfl⟩ ⟨r, hr⟩
  by_cases hnil : r = []
  · rw [hnil, List.append_nil] at hr
    rw [← hr] at hk
    cases k with
    | file id => exact hfree id rfl
    | link target => exact hlink i hi hfit target hk
    | dir => exact hslot hk
  · apply hslot
    apply Node.kindAt_of_below hnil
    rw [hr]
    intro hnone
    simp [Node.kindAt, hnone] at hk

/-- A path that is opened, in whatever tree, does not end in a slash. -/
theorem getLast?_of_openAppend (h : Placed t path) {t₁ t' : FileTree} {id : Nat}
    (hopen : t₁.openAppend path = .ok (t', id)) : path.toList.getLast? ≠ some '/' := by
  intro hslash
  by_cases htrim : String.ofList (path.toList.reverse.dropWhile (· = '/')).reverse = ""
  · -- Such a path leads to the root, which is no file.
    obtain ⟨target, htarget, hfile⟩ := h.there
    obtain ⟨-, -, -, hwalk⟩ := FileTree.walk_of_resolve htarget
    obtain ⟨es, hes⟩ := Node.kindAt_eq_dir_iff.mp (h.sound.start_isDir path)
    rw [FileTree.walk_blank _ _ _ _ (Path.blank_of_slashes htrim), FileTree.walk, hes] at hwalk
    cases hwalk
    obtain ⟨id, hid⟩ := hfile _ _ rfl
    cases hid
  · rw [FileTree.openAppend] at hopen
    simp only [hslash, Ne, htrim, not_false_eq_true, and_self, ↓reduceIte] at hopen
    split at hopen
    · cases hopen
    · cases hopen

/-- A log that opens has no path that ends in a slash. -/
theorem getLast?_of_opened (h : Placed t path) {maxBytes maxFiles : Nat} {t₀ t' : FileTree}
    {log : RotatingLog} (hopen : RotatingLog.openAt t₀ path maxBytes maxFiles = (t', .ok log)) :
    path.toList.getLast? ≠ some '/' := by
  unfold RotatingLog.openAt at hopen
  split at hopen
  · cases hopen
  · split at hopen
    · cases hopen
    · next hopened => exact h.getLast?_of_openAppend hopened

end Placed

namespace Ready

variable {t : FileTree} {path : String} {n : Nat}

/-- A slot that fits is a file or free. -/
theorem kindAt_slot (h : Ready t path n) {s : Shelf}
    (hs : s.Reached (t.root.kindAt · = some ·) t.working path) {i : Nat} (hi : i ≤ n)
    (hfit : s.Fits path i) {k : Kind} (hk : t.root.kindAt (s.slot i) = some k) :
    ∃ id, k = .file id := by
  obtain ⟨x, hx, rfl⟩ := Option.map_eq_some_iff.mp hk
  have hres := hs.resolve_slot i false (by simp)
  rw [Shelf.slot] at hx
  rw [if_pos hfit, FileTree.entryAt, hx] at hres
  obtain ⟨id, rfl⟩ := h.files i hi _ x hres
  exact ⟨id, rfl⟩

theorem holds_of_reached (h : Ready t path n) {s : Shelf}
    (hs : s.Reached (t.root.kindAt · = some ·) t.working path) :
    s.Holds t path n ∧ ∀ i ≤ n, ∀ x, s.held path t i = some x → ∃ id, x = .file id := by
  refine ⟨h.placed.holds hs ?_ ?_, ?_⟩
  · intro i hi hfit target hk
    obtain ⟨id, hid⟩ := h.kindAt_slot hs hi hfit hk
    cases hid
  · intro i hi hfit hk
    obtain ⟨id, hid⟩ := h.kindAt_slot hs hi hfit hk
    cases hid
  · intro i hi x hx
    have hk : t.root.kindAt (s.slot i) = some x.kind := by
      rw [Node.kindAt, Shelf.get?_of_held hx]
      rfl
    obtain ⟨id, hid⟩ := h.kindAt_slot hs hi (Shelf.fits_of_held hx) hk
    exact ⟨id, Node.kind_eq_file_iff.mp hid⟩

theorem holds (h : Ready t path n) (hslash : path.toList.getLast? ≠ some '/') :
    ∃ s : Shelf, s.Holds t path n ∧
      ∀ i ≤ n, ∀ x, s.held path t i = some x → ∃ id, x = .file id := by
  obtain ⟨s, hs⟩ := h.placed.exists_reached hslash
  exact ⟨s, h.holds_of_reached hs⟩

end Ready

namespace Shelf

variable {s : Shelf} {t : FileTree} {base : String} {n : Nat}

theorem Reached.makeParent (h : s.Reached (t.root.kindAt · = some ·) t.working base) :
    RotatingLog.makeParent t base = (t, .ok ()) := by
  unfold RotatingLog.makeParent
  split
  · next c r hd =>
    obtain ⟨hstart, hpieces⟩ :=
      Path.pieces_of_parent? h.pieces h.plain.1 h.plain.2.1 hd (by simp)
    have habsolute : Path.isAbsolute (c :: r) = Path.isAbsolute base.toList := by
      obtain ⟨rest, hrest⟩ := hstart
      rw [← hrest]
      rfl
    have hleads : Leads (t.root.kindAt · = some ·) FileTree.maxLinks
        (if Path.isAbsolute base.toList then [] else t.working) (Path.pieces (c :: r))
        s.directory := by
      obtain ⟨gone, hgone, hblank⟩ := Path.trimmed_append s.above
      have habove := h.leads
      rw [hgone] at habove
      have htrimmed := habove.of_append_blank hblank
      rcases hpieces with hp | hp
      · rw [hp]
        exact htrimmed
      · rw [hp]
        exact htrimmed.append_stay (Or.inl rfl)
    have hresolve : ∀ follow, t.resolve follow (String.ofList (c :: r)) =
        FileTree.walk t.root follow FileTree.maxLinks
          (if Path.isAbsolute base.toList then [] else t.working) (Path.pieces (c :: r)) := by
      intro follow
      have hclean : (c :: r).contains (Char.ofNat 0) = false := by
        rw [← Bool.not_eq_true, List.contains_iff_mem]
        exact fun hm => h.clean (hstart.subset hm)
      have hsize : (String.ofList (c :: r)).utf8ByteSize ≤ FileTree.maxPathBytes := by
        refine Nat.le_trans ?_ h.fits.1
        obtain ⟨rest, hrest⟩ := hstart
        show _ ≤ base.utf8ByteSize
        rw [← String.ofList_toList (s := base), ← hrest, utf8ByteSize_ofList_append]
        exact Nat.le_add_right _ _
      rw [FileTree.resolve, String.toList_ofList, hclean, habsolute]
      simp only [Bool.false_eq_true, ↓reduceIte, reduceCtorEq, Nat.not_lt.mpr hsize]
    obtain ⟨⟨es, hdir⟩, x, m, hthere⟩ := FileTree.walk_dir_of_leads hleads
    exact FileTree.makeDirs_of_found ((hresolve true).trans hdir) ((hresolve false).trans hthere)
  · rfl

/-- A name in the working directory. -/
theorem reached_of_name (h : t.Sound) (path : String) (hplain : Plain path.toList)
    (hslash : '/' ∉ path.toList) (hclean : Char.ofNat 0 ∉ path.toList)
    (hsize : path.utf8ByteSize ≤ FileTree.maxNameBytes) :
    (⟨[], path.toList, t.working⟩ : Shelf).Reached (t.root.kindAt · = some ·) t.working path where
  pieces := Path.pieces_of_slash_free hslash
  plain := hplain
  clean := hclean
  fits := by
    refine ⟨Nat.le_trans hsize (by decide), ?_⟩
    show (String.ofList path.toList).utf8ByteSize ≤ _
    rwa [String.ofList_toList]
  leads := by
    rw [Path.isAbsolute_of_slash_free hslash]
    exact .here h.working

namespace Holds

variable (maxBytes maxFiles : Nat)

theorem openAt_held (h : s.Holds t base n) {id : Nat} (hx : s.held base t 0 = some (.file id)) :
    RotatingLog.openAt t base maxBytes maxFiles =
      (t, .ok ⟨base, maxBytes, maxFiles, some id, t.size id⟩) := by
  rw [RotatingLog.openAt, h.reaches.makeParent]
  simp only [h.openAppend_held hx]

theorem openAt_free (h : s.Holds t base n) (hx : s.held base t 0 = none) :
    RotatingLog.openAt t base maxBytes maxFiles =
      ((t.create (s.slot 0)).1, .ok ⟨base, maxBytes, maxFiles, some t.contents.size, 0⟩) := by
  have hsize : (t.create (s.slot 0)).1.size t.contents.size = 0 := t.size_create_self (s.slot 0)
  rw [RotatingLog.openAt, h.reaches.makeParent]
  simp only [h.openAppend_free hx]
  show (_, Except.ok (RotatingLog.mk _ _ _ _ ((t.create (s.slot 0)).1.size t.contents.size))) = _
  rw [hsize]
  rfl

/-- A log opens where its active file is a file or missing. -/
theorem exists_opened (h : s.Holds t base n)
    (hfile : ∀ x, s.held base t 0 = some x → ∃ id, x = .file id) :
    ∃ t' log, RotatingLog.openAt t base maxBytes maxFiles = (t', .ok log) := by
  cases hx : s.held base t 0 with
  | none => exact ⟨_, _, h.openAt_free maxBytes maxFiles hx⟩
  | some x =>
    obtain ⟨id, rfl⟩ := hfile x hx
    exact ⟨_, _, h.openAt_held maxBytes maxFiles hx⟩

end Holds

end Shelf

namespace Ready

variable {t : FileTree}

/-- A log opens unless its path ends in a slash. -/
theorem exists_opened {path : String} {n : Nat} (h : Ready t path n)
    (hslash : path.toList.getLast? ≠ some '/') (maxBytes maxFiles : Nat) :
    ∃ t' log, RotatingLog.openAt t path maxBytes maxFiles = (t', .ok log) := by
  obtain ⟨s, hholds, honly⟩ := h.holds hslash
  exact hholds.exists_opened maxBytes maxFiles (honly 0 (Nat.zero_le n))

/-- A name in the working directory, where its slots are files or free. -/
theorem of_name (h : t.Sound) {path : String} {n : Nat}
    (hs : (⟨[], path.toList, t.working⟩ : Shelf).Reached (t.root.kindAt · = some ·) t.working path)
    (hfiles : ∀ i ≤ n, ∀ k,
      t.root.kindAt (t.working ++ [String.ofList (slotName path.toList i)]) = some k →
        ∃ id, k = .file id) : Ready t path n := by
  have hresolve := fun i => hs.resolve_slot i false (by simp)
  refine ⟨h, ⟨_, (hresolve 0).trans (if_pos hs.fits)⟩, fun i hi l m hm => ?_⟩
  rw [hresolve i] at hm
  split at hm
  · have hentry := Except.ok.inj hm
    unfold FileTree.entryAt at hentry
    cases hx : t.root.get? (t.working ++ [String.ofList (slotName path.toList i)]) with
    | none => simp [hx] at hentry
    | some x =>
      simp only [hx, FileTree.Target.found.injEq] at hentry
      obtain ⟨id, hid⟩ := hfiles i hi x.kind (by rw [Node.kindAt, hx]; rfl)
      rw [← hentry.2]
      exact ⟨id, Node.kind_eq_file_iff.mp hid⟩
  · cases hm

/-- A path to a free name in an empty directory. -/
theorem of_empty (h : t.Sound) {path : String} {d : Location} {a : String}
    (hthere : t.resolve false path = .ok (.absent d a)) (hempty : t.get? d = some (.dir []))
    (hslash : path.toList.getLast? ≠ some '/') (n : Nat) :
    Ready t path n ∧ ∀ i l m, t.resolve false (slotPath path i) ≠ .ok (.found l m) := by
  have hplaced : Placed t path := ⟨h, _, hthere, by simp⟩
  obtain ⟨s, hs⟩ := hplaced.exists_reached hslash
  have hresolve := fun i => hs.resolve_slot i false (by simp)
  have hdirectory : s.directory = d := by
    have hbase := (hresolve 0).symm.trans hthere
    rw [if_pos hs.fits, FileTree.entryAt] at hbase
    split at hbase
    · cases hbase
    · cases hbase
      rfl
  have hfree : ∀ i l m, t.resolve false (slotPath path i) ≠ .ok (.found l m) := by
    intro i l m hm
    have hnone : t.root.get? (s.directory ++ [String.ofList (slotName s.name i)]) = none := by
      rw [Node.get?_append, hdirectory, show t.root.get? d = _ from hempty]
      rfl
    rw [hresolve i, FileTree.entryAt, hnone] at hm
    split at hm
    · cases hm
    · cases hm
  exact ⟨⟨h, ⟨_, hthere⟩, fun i _ l m hm => absurd hm (hfree i l m)⟩, hfree⟩

end Ready

end Overseer.Log
