import Overseer.Proofs.FileTree.Absence
import Overseer.Proofs.FileTree.Linkless
import Overseer.Proofs.Log.Writing

/-! A rotation that goes through starts a new file, whatever stands in the slots and on the way to
them (`rotate_fresh`): the last step of a shift leaves nothing at the log's own path. Where the
slots can be moved, `Shelf.Holds` says more. -/

namespace Overseer.Log

open FileTree (Plain Leads)

/-- The pieces of a log's path, the last of which is a name, and its lengths. -/
structure Named (base : String) (above : List (List Char)) (name : List Char) : Prop where
  pieces : Path.pieces base.toList = above ++ [name]
  plain : Plain name
  clean : Char.ofNat 0 ∉ base.toList
  size : base.utf8ByteSize ≤ FileTree.maxPathBytes
  nameSize : (String.ofList name).utf8ByteSize ≤ FileTree.maxNameBytes

variable {t t₁ t₂ t' : FileTree} {base : String} {above : List (List Char)} {name : List Char}

/-- A path that was opened has a name at its end. -/
theorem exists_named (hsound : t.Sound) {id : Nat} (hopen : t.openAppend base = .ok (t', id)) :
    ∃ above name, Named base above name := by
  have hslash := hsound.getLast?_of_openAppend hopen
  obtain ⟨target, htarget, hend⟩ : ∃ target, t.resolve true base = .ok target ∧
      ∀ x es, target ≠ .found x (.dir es) := by
    simp only [FileTree.openAppend, hslash, false_and, ↓reduceIte] at hopen
    split at hopen
    · cases hopen
    · next hres => exact ⟨_, hres, by simp⟩
    · cases hopen
    · next hres => exact ⟨_, hres, by simp⟩
  obtain ⟨hclean, hne, hsize, hwalk⟩ := FileTree.walk_of_resolve htarget
  have hlast := Path.getLast?_pieces_ne hne hslash
  obtain ⟨above, name, hpieces⟩ : ∃ above name, Path.pieces base.toList = above ++ [name] := by
    rcases List.eq_nil_or_concat (Path.pieces base.toList) with hnil | ⟨above, name, h⟩
    · exact absurd hnil (Path.pieces_ne_nil _)
    · exact ⟨above, name, by rw [h, List.concat_eq_append]⟩
  rw [hpieces] at hwalk hlast
  obtain ⟨hplain, hnameSize⟩ := FileTree.last_of_walk hwalk (hsound.start_isDir base) hend
    List.getLast?_concat (by simpa using hlast)
  exact ⟨above, name, hpieces, hplain, hclean, hsize, hnameSize⟩

namespace Named

/-- Where the path of one slot leads to something, the slots are entries of one directory. -/
theorem reached (h : Named base above name) {i : Nat} {follow : Bool} {l : Location} {x : Node}
    (hfound : t.resolve follow (slotPath base i) = .ok (.found l x)) :
    ∃ s : Shelf, s.Reached (t.root.kindAt · = some ·) t.working base ∧
      (follow = false → l = s.slot i) := by
  obtain ⟨-, -, -, hwalk⟩ := FileTree.walk_of_resolve hfound
  cases i with
  | zero =>
    have hlast : (Path.pieces base.toList).getLast? = some name := by
      rw [h.pieces, List.getLast?_concat]
    obtain ⟨d, hleads, hl⟩ := FileTree.leads_of_found hwalk hlast h.plain
    rw [slotPath, h.pieces, List.dropLast_concat] at hleads
    exact ⟨⟨above, name, d⟩, ⟨h.pieces, h.plain, h.clean, ⟨h.size, h.nameSize⟩, hleads⟩, hl⟩
  | succ i =>
    have hpieces := pieces_archivePath h.pieces h.plain (i + 1)
    have hlast : (Path.pieces (archivePath base (i + 1)).toList).getLast? =
        some (archiveName name (i + 1)) := by
      rw [hpieces, List.getLast?_concat]
    obtain ⟨d, hleads, hl⟩ := FileTree.leads_of_found hwalk hlast (archiveName_plain name (i + 1))
    obtain ⟨gone, hgone, hblank⟩ := Path.trimmed_append above
    rw [slotPath, hpieces, List.dropLast_concat,
      isAbsolute_archivePath h.pieces h.plain] at hleads
    have hleads' := hleads.append_blank hblank
    rw [← hgone] at hleads'
    exact ⟨⟨above, name, d⟩, ⟨h.pieces, h.plain, h.clean, ⟨h.size, h.nameSize⟩, hleads'⟩, hl⟩

end Named

namespace Shelf

variable {s : Shelf}

/-- A slot's path finds nothing once the slot is free, if all else on its way is still there. -/
theorem Reached.gone (h : s.Reached (t.root.kindAt · = some ·) t.working base) (i : Nat)
    (hworking : t'.working = t.working)
    (hgone : ∀ x, s.slot i <+: x → t'.root.kindAt x = none)
    (hkept : ∀ x k, ¬ s.slot i <+: x → t.root.kindAt x = some k → t'.root.kindAt x = some k)
    (follow : Bool) (l : Location) (n : Node) :
    t'.resolve follow (slotPath base i) ≠ .ok (.found l n) := by
  intro hfound
  obtain ⟨ps, hps, hleads⟩ := h.leads_slotPath i
  obtain ⟨-, -, -, hwalk⟩ := FileTree.walk_of_resolve hfound
  rw [hps, hworking] at hwalk
  exact FileTree.walk_gone hleads (slotName_plain h.plain i) hgone hkept follow l n hwalk

/-- What is below one slot is not below another. -/
theorem not_below_other (s : Shelf) {i j : Nat} (hij : i ≠ j) {x : Location}
    (hx : s.slot i <+: x) : ¬ s.slot j <+: x := by
  intro hx'
  rcases List.prefix_or_prefix_of_prefix hx hx' with h | h
  · exact s.not_slot_below hij h
  · exact s.not_slot_below (Ne.symm hij) h

/-- Where the path of a slot is free, so is the slot. -/
theorem Reached.absent (h : s.Reached (t.root.kindAt · = some ·) t.working base) {i : Nat}
    {d : Location} {a : String} (habsent : t.resolve false (slotPath base i) = .ok (.absent d a)) :
    d ++ [a] = s.slot i ∧ t.root.kindAt (s.slot i) = none := by
  rw [h.resolve_slot i false (by simp)] at habsent
  split at habsent
  · have hentry := Except.ok.inj habsent
    unfold FileTree.entryAt at hentry
    split at hentry
    · cases hentry
    · next hnone =>
      obtain ⟨rfl, rfl⟩ := FileTree.Target.absent.inj hentry
      exact ⟨rfl, Node.kindAt_eq_none_iff.mpr hnone⟩
  · cases habsent

/-- A move from a slot to a free one changes nothing outside the two. -/
theorem Reached.kindAt_move (h : s.Reached (t.root.kindAt · = some ·) t.working base)
    (hintact : t.Intact) {i j : Nat} (n : Node) {x : Location} (hx : ¬ s.slot j <+: x) :
    ((t.put (s.slot i) none).put (s.slot j) (some n)).root.kindAt x =
      if s.slot i <+: x then none else t.root.kindAt x := by
  have hdir : (t.put (s.slot i) none).root.kindAt s.directory = some .dir :=
    (Node.kindAt_alter_way hintact.distinct _ _ h.isDir none (List.prefix_refl _)).1
  refine Eq.trans ?_ (hintact.kindAt_remove h.isDir x)
  exact Node.kindAt_alter_beside (hintact.remove h.isDir).distinct _ _ hdir (some n) hx

end Shelf

namespace Named

/-- Clearing a slot leaves nothing at its path. -/
theorem clearSlot (h : Named base above name) (hintact : t.Intact) {i : Nat}
    (hclear : RotatingLog.clearSlot t (slotPath base i) = .ok t₁) :
    t₁.Intact ∧ t₁.contents = t.contents ∧ t₁.working = t.working ∧
      ∀ l x, t₁.resolve false (slotPath base i) ≠ .ok (.found l x) := by
  unfold RotatingLog.clearSlot FileTree.removeFile at hclear
  cases hres : t.resolve false (slotPath base i) with
  | error e =>
    rw [hres] at hclear
    cases e <;> cases hclear
    exact ⟨hintact, rfl, rfl, by simp [hres]⟩
  | ok target =>
    cases target with
    | absent d a =>
      rw [hres] at hclear
      cases hclear
      exact ⟨hintact, rfl, rfl, by simp [hres]⟩
    | found l x =>
      obtain ⟨s, hs, hl⟩ := h.reached hres
      obtain rfl := hl rfl
      have hremoved : t₁ = t.put (s.slot i) none := by
        rw [hres] at hclear
        cases x <;> cases hclear <;> rfl
      have hkind : ∀ x, t₁.root.kindAt x = if s.slot i <+: x then none else t.root.kindAt x := by
        rw [hremoved]
        exact hintact.kindAt_remove hs.isDir
      have hworking : t₁.working = t.working := by rw [hremoved]; rfl
      refine ⟨?_, by rw [hremoved]; rfl, hworking, hs.gone i hworking (fun x hx => ?_)
        (fun x k hx hk => ?_) false⟩
      · rw [hremoved]
        exact hintact.remove hs.isDir
      · rw [hkind, if_pos hx]
      · rw [hkind, if_neg hx, hk]

/-- A slot that has been moved to the next one leaves nothing at its path. -/
theorem rename (h : Named base above name) (hintact : t.Intact) {i : Nat}
    (hfree : ∀ l x, t.resolve false (slotPath base (i + 1)) ≠ .ok (.found l x))
    (hrename : t.rename (slotPath base i) (slotPath base (i + 1)) = .ok t') :
    t'.Intact ∧ t'.contents = t.contents ∧ t'.working = t.working ∧
      ∀ follow l x, t'.resolve follow (slotPath base i) ≠ .ok (.found l x) := by
  cases hsource : t.resolve false (slotPath base i) with
  | error e => simp [FileTree.rename, hsource, bind, Except.bind] at hrename
  | ok source =>
    cases source with
    | absent d a => simp [FileTree.rename, hsource, bind, Except.bind] at hrename
    | found l n =>
      obtain ⟨s, hs, hl⟩ := h.reached hsource
      obtain rfl := hl rfl
      obtain ⟨-, -, -, hwalk⟩ := FileTree.walk_of_resolve hsource
      have hn := FileTree.walk_found hwalk
      cases htarget : t.resolve false (slotPath base (i + 1)) with
      | error e => simp [FileTree.rename, hsource, htarget, bind, Except.bind] at hrename
      | ok target =>
        cases target with
        | found l' n' => exact absurd htarget (hfree l' n')
        | absent d a =>
          obtain ⟨hslot, hnone⟩ := hs.absent htarget
          have hmoved : t' = (t.put (s.slot i) none).put (s.slot (i + 1)) (some n) := by
            simp only [FileTree.rename, hsource, htarget, bind, Except.bind, hslot] at hrename
            split at hrename
            · cases hrename
            · exact (Except.ok.inj hrename).symm
          have hkind := fun x hx => (congrArg (·.root.kindAt x) hmoved).trans
            (hs.kindAt_move hintact (i := i) n hx)
          have hworking : t'.working = t.working := by rw [hmoved]; rfl
          refine ⟨?_, by rw [hmoved]; rfl, hworking,
            hs.gone i hworking (fun x hx => ?_) (fun x k hx hk => ?_)⟩
          · rw [hmoved]
            exact hintact.move hs.isDir hn
          · rw [hkind x (s.not_below_other (by simp) hx), if_pos hx]
          · have hout : ¬ s.slot (i + 1) <+: x := by
              rintro ⟨r, rfl⟩
              rw [Node.kindAt, Node.get?_append, Node.kindAt_eq_none_iff.mp hnone] at hk
              cases hk
            rw [hkind x hout, if_neg hx, hk]

/-- A shift that goes through leaves nothing at the log's own path. The way is that of the slots:
each finds its target free once that has been cleared, and is free itself once it has been moved. -/
theorem shift (h : Named base above name) (hintact : t.Intact) {n : Nat}
    (hshift : RotatingLog.shift t base n = (t', .ok ())) :
    t'.Intact ∧ t'.contents = t.contents ∧
      (n ≠ 0 → ∀ l x, t'.resolve true base ≠ .ok (.found l x)) := by
  induction n generalizing t with
  | zero =>
    cases hshift
    exact ⟨hintact, rfl, fun hne => absurd rfl hne⟩
  | succ n ih =>
    rw [RotatingLog.shift] at hshift
    dsimp only at hshift
    split at hshift
    · split at hshift
      · cases hshift
      · next cleared hclear =>
        obtain ⟨hintact₁, hcontents₁, -, hfree⟩ := h.clearSlot hintact hclear
        split at hshift
        · cases hshift
        · next moved hrename =>
          obtain ⟨hintact₂, hcontents₂, -, hgone⟩ := h.rename hintact₁ hfree hrename
          obtain ⟨hintact', hcontents', hbase⟩ := ih hintact₂ hshift
          refine ⟨hintact', hcontents'.trans (hcontents₂.trans hcontents₁), fun _ => ?_⟩
          cases n with
          | zero =>
            cases hshift
            exact hgone true
          | succ n => exact hbase (by simp)
    · next hmissing =>
      obtain ⟨hintact', hcontents', hbase⟩ := ih hintact hshift
      refine ⟨hintact', hcontents', fun _ => ?_⟩
      cases n with
      | zero =>
        cases hshift
        intro l x hfound
        have hfound' : t'.resolve true (slotPath base 0) = .ok (.found l x) := hfound
        exact hmissing (by rw [FileTree.pathExists, hfound'])
      | succ n => exact hbase (by simp)

/-- A rotation that goes through gives the log an empty file of its own. -/
theorem rotate_fresh {log log' : RotatingLog} (h : Named log.path above name) (hintact : t.Intact)
    (hfiles : log.maxFiles ≠ 0) (hrotate : log.rotate t = (t', log', .ok ())) :
    t'.Intact ∧ t'.contents = t.contents.push .empty ∧
      log' = { log with handle := some t.contents.size, size := 0 } ∧
      ∀ l x, t'.resolve true log.path = .ok (.found l x) → x = .file t.contents.size := by
  obtain ⟨t₁, id, hshift, hopen, rfl⟩ := RotatingLog.shift_of_rotate hfiles hrotate
  obtain ⟨hintact₁, hcontents, hgone⟩ := h.shift hintact hshift
  obtain ⟨hintact', -, honly, ⟨-, l, hfound⟩ | ⟨rfl, hpush, -⟩⟩ := hintact₁.openAppend hopen
  · exact absurd hfound (hgone hfiles l _)
  · rw [hcontents] at hpush honly ⊢
    have hsize : t'.size t.contents.size = 0 := by
      simp [FileTree.size, FileTree.bytes, hpush]
    exact ⟨hintact', hpush, by rw [hsize], honly⟩

end Named

end Overseer.Log
