import Overseer.Proofs.Log.Twins

/-! Two logs in one directory. `Beside` says that neither has a slot of the other; under it
`Abreast.write` leaves the slots of the other log as they are, and after writes to both in any order
(`Abreast.run`) each log has the files that it would have alone. -/

namespace Overseer.Log

namespace RotatingLog

/-- Writes to two logs in turn, those to the first one on the left. -/
def writeBoth (log log' : RotatingLog) (t : FileTree) :
    List (ByteArray ⊕ ByteArray) → FileTree × RotatingLog × RotatingLog
  | [] => (t, log, log')
  | .inl r :: rest => writeBoth (log.write t r).log log' (log.write t r).tree rest
  | .inr r :: rest => writeBoth log (log'.write t r).log (log'.write t r).tree rest

theorem writeBoth_swap (log log' : RotatingLog) (t : FileTree)
    (turns : List (ByteArray ⊕ ByteArray)) :
    log'.writeBoth log t (turns.map Sum.swap) =
      ((log.writeBoth log' t turns).1, (log.writeBoth log' t turns).2.2,
        (log.writeBoth log' t turns).2.1) := by
  induction turns generalizing log log' t with
  | nil => rfl
  | cons turn rest ih =>
    cases turn with
    | inl r => exact ih (log.write t r).log log' (log.write t r).tree
    | inr r => exact ih log (log'.write t r).log (log'.write t r).tree

end RotatingLog

namespace Shelf

variable {s s' : Shelf} {t t' : FileTree} {base base' : String} {n n' : Nat}
  {log log' : RotatingLog}

/-! ## Slots left as they are -/

/-- Slots up to `n` hold what they held, and the files there have the bytes that they had. -/
structure Spared (s : Shelf) (base : String) (n : Nat) (t t' : FileTree) : Prop where
  held : ∀ i ≤ n, s.held base t' i = s.held base t i
  bytes : ∀ i ≤ n, ∀ x, s.held base t i = some x → ∀ r id, x.kindAt r = some (.file id) →
    t'.bytes id = t.bytes id

namespace Spared

theorem sameAt (h : s.Spared base n t t') (hholds : s.Holds t base n) (hholds' : s.Holds t' base n)
    {i : Nat} (hi : i ≤ n) : SameAt t t' (slotPath base i) where
  target := hholds.resolve_congr hholds' hi (h.held i hi) false
  bytes _ _ hm := h.bytes i hi _ (hholds.held_of_found hi hm).1

theorem bytes_file (h : s.Spared base n t t') {i id : Nat} (hi : i ≤ n)
    (hx : s.held base t i = some (.file id)) : t'.bytes id = t.bytes id :=
  h.bytes i hi _ hx [] id rfl

theorem view (h : s.Spared base n t t') {i : Nat} (hi : i ≤ n) :
    s.view base t' i = s.view base t i := by
  rw [Shelf.view, Shelf.view, h.held i hi]
  cases hx : s.held base t i with
  | none => rfl
  | some x =>
    cases x with
    | file id => rw [Option.map_some, Option.map_some, sight, sight, h.bytes_file hi hx]
    | link target => rfl
    | dir es => rfl

/-- A log whose slots are as they were is still in use. -/
theorem live (h : s.Spared log.path log.maxFiles t t') (hlive : s.Live t log)
    (hholds : s.Holds t' log.path log.maxFiles) : s.Live t' log := by
  obtain ⟨id, hx, hhandle, hsize⟩ := hlive.active
  refine ⟨hholds, id, (h.held 0 (Nat.zero_le _)).trans hx, hhandle, ?_⟩
  rw [hsize, FileTree.size, FileTree.size, h.bytes_file (Nat.zero_le _) hx]

end Spared

/-- A write changes the bytes of the active file only. -/
theorem Live.write_bytes (h : s.Live t log) (record : ByteArray) {id : Nat}
    (hid : id < t.contents.size) (hne : s.held log.path t 0 ≠ some (.file id)) :
    (log.write t record).tree.bytes id = t.bytes id := by
  cases (h.write_wrote record).1 with
  | added k _ _ _ hx _ hcontents =>
    rw [FileTree.bytes, hcontents]
    exact FileTree.bytes_append_ne t record fun he => hne (he ▸ hx)
  | cut k _ _ _ _ hx _ hcontents =>
    have hk : id ≠ k := fun he => hne (he ▸ hx)
    rw [FileTree.bytes, hcontents]
    exact (FileTree.bytes_append_ne _ record hk).trans (FileTree.bytes_truncate_ne t hk)
  | shifted _ _ _ _ _ hcontents =>
    simp [FileTree.bytes, hcontents, Array.getElem?_push, Nat.ne_of_lt hid]
  | stuck k _ _ _ _ _ _ hx _ hcontents =>
    rw [FileTree.bytes, hcontents]
    exact FileTree.bytes_append_ne t record fun he => hne (he ▸ hx)

/-! ## Two logs in one directory -/

/-- A location that is in none of the slots of either log. -/
def Clear (s s' : Shelf) (base base' : String) (n n' : Nat) (t : FileTree) (l : Location)
    (k : Kind) : Prop := s.Outside base n t l k ∧ s'.Outside base' n' t l k

/-- The slots of two logs are different entries of one directory, and the paths of both lead there
through none of them. -/
structure Beside (s s' : Shelf) (base base' : String) (n n' : Nat) (t : FileTree) : Prop where
  holds : s.Holds t base n
  holds' : s'.Holds t base' n'
  reached : s.Reached (Clear s s' base base' n n' t) t.working base
  reached' : s'.Reached (Clear s s' base base' n n' t) t.working base'
  directory : s'.directory = s.directory
  names : ∀ i ≤ n, ∀ j ≤ n', s.slot i ≠ s'.slot j

namespace Beside

/-- Two logs whose paths differ in the last piece only, and whose slots have no name in common. -/
theorem of_holds (h : s.Holds t base n) (h' : s'.Holds t base' n') (habove : s'.above = s.above)
    (hstart : Path.isAbsolute base'.toList = Path.isAbsolute base.toList)
    (hnames : ∀ i ≤ n, ∀ j ≤ n', slotName s.name i ≠ slotName s'.name j) :
    Beside s s' base base' n n' t := by
  have hleads' := h'.reached.leads
  rw [habove, hstart] at hleads'
  obtain ⟨hdirectory, hleads⟩ := h.reached.leads.both hleads' fun x k k' hk hk' =>
    Option.some.inj (hk'.1.symm.trans hk.1)
  refine ⟨h, h', { h.reached with leads := hleads }, { h'.reached with leads := ?_ }, hdirectory,
    fun i hi j hj he => ?_⟩
  · rw [habove, hstart, hdirectory]
    exact hleads
  · rw [slot, slot, hdirectory] at he
    have hname := congrArg String.toList (List.cons.inj (List.append_cancel_left he)).1
    rw [String.toList_ofList, String.toList_ofList] at hname
    exact hnames i hi j hj hname

theorem symm (h : Beside s s' base base' n n' t) : Beside s' s base' base n' n t where
  holds := h.holds'
  holds' := h.holds
  reached := h.reached'.mono fun _ _ hk _ => ⟨hk.2, hk.1⟩
  reached' := h.reached.mono fun _ _ hk _ => ⟨hk.2, hk.1⟩
  directory := h.directory.symm
  names i hi j hj := (h.names j hj i hi).symm

/-- No slot of one log lies at or below a slot of the other. -/
theorem not_below (h : Beside s s' base base' n n' t) {i j : Nat} (hi : i ≤ n) (hj : j ≤ n') :
    ¬ s.slot i <+: s'.slot j := by
  intro hp
  refine h.names i hi j hj (hp.eq_of_length ?_)
  simp [slot, h.directory]

theorem not_above (h : Beside s s' base base' n n' t) (j : Nat) : ¬ s'.slot j <+: s.directory := by
  rw [← h.directory]
  exact s'.not_slot_above j

/-- The files in the slots of one log are not the active file of the other. -/
theorem file_apart (h : Beside s s' base base' n n' t) {j : Nat} (hj : j ≤ n') {x : Node}
    (hx : s'.held base' t j = some x) {r : Location} {id : Nat}
    (hr : x.kindAt r = some (.file id)) :
    id < t.contents.size ∧ s.held base t 0 ≠ some (.file id) := by
  have hbelow : t.root.kindAt (s'.slot j ++ r) = some (.file id) := by
    rw [Node.kindAt, Node.get?_append, get?_of_held hx]
    exact hr
  refine ⟨h.holds.intact.stored _ id hbelow, fun hactive => ?_⟩
  have hfile := Node.kindAt_eq_file_iff.mpr (get?_of_held hactive)
  exact h.symm.not_below hj (Nat.zero_le n) ⟨r, h.holds.intact.alone _ _ id hbelow hfile⟩

/-- A change within the slots of one log that leaves the bytes of all but its active file leaves
the slots of the other as they are. -/
theorem change (h : Beside s s' base base' n n' t) (hconfined : s.Confined base n t t')
    (hholds : s.Holds t' base n)
    (hbytes : ∀ id < t.contents.size, s.held base t 0 ≠ some (.file id) →
      t'.bytes id = t.bytes id) :
    Beside s s' base base' n n' t' ∧ s'.Spared base' n' t t' := by
  have hnode : ∀ j ≤ n', t'.root.get? (s'.slot j) = t.root.get? (s'.slot j) := fun j hj =>
    hconfined.nodes _ (fun i hi _ => h.not_below hi hj) (h.not_above j)
  have hclear : ∀ l k, Clear s s' base base' n n' t l k → Clear s s' base base' n n' t' l k := by
    rintro l k ⟨⟨hk, hl⟩, -, hl'⟩
    have hk' := (hconfined.kinds l hl).trans hk
    exact ⟨⟨hk', hl⟩, hk', hl'⟩
  have hreached : s.Reached (Clear s s' base base' n n' t') t'.working base := by
    rw [hconfined.working]
    exact h.reached.mono fun l k hk _ => hclear l k hk
  have hreached' : s'.Reached (Clear s s' base base' n n' t') t'.working base' := by
    rw [hconfined.working]
    exact h.reached'.mono fun l k hk _ => hclear l k hk
  have hholds' : s'.Holds t' base' n' := by
    refine ⟨hholds.intact, hreached'.mono fun _ _ hk _ => hk.2, fun j hj hfit target => ?_⟩
    rw [Node.kindAt, hnode j hj]
    exact h.holds'.noLink j hj hfit target
  refine ⟨⟨hholds, hholds', hreached, hreached', h.directory, h.names⟩, fun j hj => ?_,
    fun j hj x hx r id hr => ?_⟩
  · rw [Shelf.held, Shelf.held, hnode j hj]
  · obtain ⟨hid, hne⟩ := h.file_apart hj hx hr
    exact hbytes id hid hne

end Beside

/-! ## Both in use -/

/-- Two logs of one directory, both in use. -/
structure Abreast (s s' : Shelf) (log log' : RotatingLog) (t : FileTree) : Prop where
  live : s.Live t log
  live' : s'.Live t log'
  beside : Beside s s' log.path log'.path log.maxFiles log'.maxFiles t

namespace Abreast

theorem symm (h : Abreast s s' log log' t) : Abreast s' s log' log t :=
  ⟨h.live', h.live, h.beside.symm⟩

/-- A log that opens beside one in use leaves the slots of that one as they are. -/
theorem opened {maxBytes : Nat} (h : s.Live t log)
    (hbeside : Beside s s' log.path base' log.maxFiles n' t)
    (hfile : ∀ x, s'.held base' t 0 = some x → ∃ id, x = .file id)
    (hopen : RotatingLog.openAt t base' maxBytes n' = (t', .ok log')) :
    log'.path = base' ∧ log'.maxFiles = n' ∧ Abreast s s' log log' t' := by
  obtain ⟨rfl, rfl, hlive', hmade⟩ := hbeside.holds'.opened hfile hopen
  refine ⟨rfl, rfl, ?_⟩
  rcases hmade with rfl | ⟨-, rfl⟩
  · exact ⟨h, hlive', hbeside⟩
  · have hfits := hbeside.holds'.reached.fits
    obtain ⟨hbeside', hspared⟩ := hbeside.symm.change
      (hbeside.holds'.confined_create (Nat.zero_le _) hfits)
      (hbeside.holds'.create (Nat.zero_le _) hfits)
      fun id hid _ => FileTree.bytes_create_lt t (s'.slot 0) hid
    exact ⟨hspared.live h hbeside'.holds', hlive', hbeside'.symm⟩

/-- A write to one log leaves both in use and the slots of the other as they are. -/
theorem write (h : Abreast s s' log log' t) (record : ByteArray) :
    Abreast s s' (log.write t record).log log' (log.write t record).tree ∧
      s'.Spared log'.path log'.maxFiles t (log.write t record).tree := by
  obtain ⟨-, hlive, hconfined⟩ := h.live.write_wrote record
  have hholds := hlive.holds
  rw [RotatingLog.write_path, RotatingLog.write_maxFiles] at hholds
  obtain ⟨hbeside, hspared⟩ := h.beside.change hconfined hholds
    fun id hid hne => h.live.write_bytes record hid hne
  refine ⟨⟨hlive, hspared.live h.live' hbeside.holds', ?_⟩, hspared⟩
  rw [RotatingLog.write_path, RotatingLog.write_maxFiles]
  exact hbeside

/-- After writes to both, in any order, both are still in use, and what the first one shows is
what it would show with the writes to it alone. -/
theorem writeBoth (h : Abreast s s' log log' t) (turns : List (ByteArray ⊕ ByteArray))
    {alone : RotatingLog} {u : FileTree} (halone : s.Live u alone) (htwin : Twin s log alone t u) :
    Abreast s s' (log.writeBoth log' t turns).2.1 (log.writeBoth log' t turns).2.2
        (log.writeBoth log' t turns).1 ∧
      Twin s (log.writeBoth log' t turns).2.1
        (alone.writeAll u (turns.filterMap Sum.getLeft?)).2 (log.writeBoth log' t turns).1
        (alone.writeAll u (turns.filterMap Sum.getLeft?)).1 := by
  induction turns generalizing t u log log' alone with
  | nil => exact ⟨h, htwin⟩
  | cons turn rest ih =>
    cases turn with
    | inl r =>
      exact ih (h.write r).1 (halone.write_wrote r).2.1 (htwin.write h.live halone r)
    | inr r =>
      obtain ⟨hnext, hspared⟩ := h.symm.write r
      refine ih hnext.symm halone ⟨htwin.settings, fun i hi => ?_⟩
      rw [htwin.views i hi, hspared.view hi]

/-- After writes to both, in any order, the first log has its path and slots as before, and its
files are those that it has after the writes to it alone. -/
theorem run (h : Abreast s s' log log' t) (turns : List (ByteArray ⊕ ByteArray)) :
    Abreast s s' (log.writeBoth log' t turns).2.1 (log.writeBoth log' t turns).2.2
        (log.writeBoth log' t turns).1 ∧
      (log.writeBoth log' t turns).2.1.path = log.path ∧
      (log.writeBoth log' t turns).2.1.maxFiles = log.maxFiles ∧
      ∀ i ≤ log.maxFiles, fileAt (log.writeBoth log' t turns).1 (slotPath log.path i) =
        fileAt (log.writeAll t (turns.filterMap Sum.getLeft?)).1 (slotPath log.path i) := by
  obtain ⟨habreast, htwin⟩ := h.writeBoth turns h.live .refl
  obtain ⟨hlive, hpath, hmax⟩ := h.live.writeAll_live (turns.filterMap Sum.getLeft?)
  have hpath' := htwin.path.symm.trans hpath
  have hmax' := htwin.maxFiles.symm.trans hmax
  refine ⟨habreast, hpath', hmax', fun i hi => ?_⟩
  have hholds := hlive.holds
  have hholds' := habreast.live.holds
  have hview := htwin.views i (by rw [hmax']; exact hi)
  rw [hpath, hmax] at hholds
  rw [hpath', hmax'] at hholds'
  rw [hpath'] at hview
  rw [hholds.fileAt_view hi, hholds'.fileAt_view hi, hview]

/-- A write to one log changes no slot of the other. -/
theorem sameAt (h : Abreast s s' log log' t) (record : ByteArray) {i : Nat}
    (hi : i ≤ log'.maxFiles) : SameAt t (log.write t record).tree (slotPath log'.path i) := by
  obtain ⟨hnext, hspared⟩ := h.write record
  exact hspared.sameAt h.live'.holds hnext.live'.holds hi

end Abreast

end Shelf

end Overseer.Log
