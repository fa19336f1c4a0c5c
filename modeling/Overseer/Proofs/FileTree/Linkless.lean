import Overseer.Proofs.FileTree.Making
import Overseer.Proofs.Path.Pieces

/-! Trees without symbolic links. Making directories and opening files adds none, and a path that
was opened to append leads to the file that was opened (`Linkless.resolve_opened`). -/

namespace Overseer.FileTree

/-- No node is a symbolic link. -/
def Linkless (t : FileTree) : Prop := ∀ l target, t.root.kindAt l ≠ some (.link target)

theorem linkless_empty : empty.Linkless := by
  intro l target
  cases l with
  | nil => simp [empty, Node.kindAt, Node.get?, Node.kind]
  | cons a r =>
    by_cases ha : a = "work"
    · subst ha
      cases r <;> simp [empty, Node.kindAt, Node.get?, Node.entries, Node.kind]
    · simp [empty, Node.kindAt, Node.get?, Node.entries, List.lookup_cons,
        beq_eq_false_iff_ne.mpr ha]

/-- Without links it does not matter whether they are followed. -/
theorem walk_linkless {root : Node} (h : ∀ l target, root.kindAt l ≠ some (.link target))
    (follow : Bool) (links : Nat) (l : Location) (todo : List (List Char)) :
    walk root follow links l todo = walk root false links l todo := by
  induction todo generalizing l with
  | nil => rw [walk, walk]
  | cons p rest ih =>
    rw [walk, walk]
    by_cases hp : p = [] ∨ p = ['.']
    · rw [if_pos hp, if_pos hp, ih]
    · by_cases hup : p = ['.', '.']
      · rw [if_neg hp, if_neg hp, if_pos hup, if_pos hup, ih]
      · rw [if_neg hp, if_neg hp, if_neg hup, if_neg hup]
        cases hn : root.get? (l ++ [String.ofList p]) with
        | none => simp only [hn]
        | some n =>
          cases n with
          | dir es => simp only [hn, ih]
          | file id => simp only [hn]
          | link target => exact absurd (Node.kindAt_eq_link_iff.mpr hn) (h _ target)

namespace Linkless

variable {t t' : FileTree} {path : String}

theorem resolve (h : t.Linkless) (follow : Bool) (path : String) :
    t.resolve follow path = t.resolve false path := by
  unfold FileTree.resolve
  dsimp only
  rw [walk_linkless h follow]

/-- What a path leads to is no link. -/
theorem ne_link (h : t.Linkless) {follow : Bool} {l : Location} {target : String} :
    t.resolve follow path ≠ .ok (.found l (.link target)) := by
  intro hl
  obtain ⟨-, -, -, hwalk⟩ := walk_of_resolve hl
  exact h l target (Node.kindAt_eq_link_iff.mpr (walk_found hwalk))

/-! ## What adds no link -/

theorem put (h : t.Linkless) (hsound : t.Sound) {d : Location} {a : String}
    (hd : t.root.kindAt d = some .dir) {x : Node}
    (hx : ∀ r target, x.kindAt r ≠ some (.link target)) : (t.put (d ++ [a]) (some x)).Linkless := by
  intro l target hl
  rcases hsound.intact.kindAt_put hd _ hl with ⟨r, y, -, hy, hr⟩ | ⟨-, hl⟩
  · cases hy
    exact hx r target hr
  · exact h l target hl

theorem makeDir (h : t.Linkless) (hsound : t.Sound) (hm : t.makeDir path = .ok t') :
    t'.Linkless := by
  unfold FileTree.makeDir at hm
  cases hr : t.resolve false path with
  | error e => simp [hr, bind, Except.bind] at hm
  | ok target =>
    cases target with
    | found l n => simp [hr, bind, Except.bind] at hm
    | absent d a =>
      simp only [hr, bind, Except.bind, Except.ok.injEq] at hm
      subst hm
      exact h.put hsound (hsound.resolve_absent hr).1 Node.kindAt_empty_ne_link

theorem ensureDir (h : t.Linkless) (hsound : t.Sound) (hm : t.ensureDir path = .ok t') :
    t'.Linkless := by
  unfold FileTree.ensureDir at hm
  split at hm
  · next made hmade =>
    cases hm
    exact h.makeDir hsound hmade
  · split at hm
    · cases hm
      exact h
    · cases hm

theorem makeNearest (h : t.Linkless) (hsound : t.Sound) (paths : List (List Char))
    (missing : List String) : (t.makeNearest paths missing).1.Linkless := by
  induction paths generalizing missing with
  | nil => exact h
  | cons p rest ih =>
    rw [FileTree.makeNearest]
    split
    · next made hmade => exact h.makeDir hsound hmade
    · exact ih _
    · split
      · exact h
      · exact h

theorem makeEach (h : t.Linkless) (hsound : t.Sound) (paths : List String) :
    (t.makeEach paths).1.Linkless := by
  induction paths generalizing t with
  | nil => exact h
  | cons p rest ih =>
    rw [FileTree.makeEach]
    split
    · next made hmade => exact ih (h.ensureDir hsound hmade) (hsound.ensureDir hmade)
    · exact h

theorem makeDirs (h : t.Linkless) (hsound : t.Sound) (path : String) :
    (t.makeDirs path).1.Linkless := by
  have hnearest := h.makeNearest hsound (ancestors path.toList) []
  have hsound' := hsound.makeNearest (ancestors path.toList) []
  unfold FileTree.makeDirs
  split
  · next made missing hmade =>
    rw [hmade] at hnearest hsound'
    exact hnearest.makeEach hsound' missing
  · next made e hmade =>
    rw [hmade] at hnearest
    exact hnearest

theorem create (h : t.Linkless) (hsound : t.Sound) {d : Location} {a : String}
    (hd : t.root.kindAt d = some .dir) : (t.create (d ++ [a])).1.Linkless := by
  refine h.put hsound hd fun r target => ?_
  cases r <;> simp [Node.kindAt, Node.get?, Node.entries, Node.kind]

/-! ## Opening a file -/

/-- A path that leads to a free name leads to the file once it is made there. -/
theorem resolve_created (h : t.Linkless) (hsound : t.Sound)
    (hslash : path.toList.getLast? ≠ some '/') {d : Location} {a : String}
    (hr : t.resolve false path = .ok (.absent d a)) :
    (t.create (d ++ [a])).1.resolve false path =
      .ok (.found (d ++ [a]) (.file t.contents.size)) := by
  obtain ⟨hd, hfree⟩ := hsound.resolve_absent hr
  have hmade : (t.create (d ++ [a])).1.root.get? (d ++ [a]) = some (.file t.contents.size) :=
    Node.get?_alter_below hsound.distinct _ _ hd _ []
  -- The directories on the way are still there.
  have hkept : ∀ l, t.root.kindAt l = some .dir →
      (t.create (d ++ [a])).1.root.kindAt l = some .dir := by
    intro l hl
    have hout : ¬ (d ++ [a]) <+: l := by
      rintro ⟨r, rfl⟩
      rw [Node.kindAt, Node.get?_append, Node.kindAt_eq_none_iff.mp hfree] at hl
      cases hl
    exact (Node.kindAt_alter_beside hsound.distinct d a hd _ hout).trans hl
  obtain ⟨hclean, hne, hsize, hwalk⟩ := walk_of_resolve hr
  obtain ⟨ps, name, d', hpieces, hplain, hleads⟩ :=
    leads_of_walk hwalk (hsound.start_isDir path) (Path.getLast?_pieces_ne hne hslash)
      (fun _ _ hfound => by cases hfound)
  have hleads' : Leads ((t.create (d ++ [a])).1.root.kindAt · = some ·) maxLinks
      (if Path.isAbsolute path.toList then [] else t.working) ps d' := by
    refine hleads.mono fun l k hk hnoFile => ?_
    cases k with
    | file id => exact absurd rfl (hnoFile id)
    | link target => exact absurd hk (h l target)
    | dir => exact hkept l hk
  rw [hpieces, walk_of_leads hleads false hplain (by simp), lastStep] at hwalk
  split at hwalk
  · cases hwalk
  · next hname =>
    have hentry := Except.ok.inj hwalk
    unfold entryAt at hentry
    split at hentry
    · cases hentry
    · obtain ⟨rfl, rfl⟩ := Target.absent.inj hentry
      have hstep := walk_of_leads hleads' false hplain (by simp)
      rw [lastStep, if_neg hname, entryAt, hmade, ← hpieces] at hstep
      unfold FileTree.resolve
      dsimp only
      rw [if_neg (by simpa using hclean), if_neg hne, if_neg (Nat.not_lt.mpr hsize)]
      exact hstep

end Linkless

/-- A path that ends in a slash is opened by nobody. -/
theorem Sound.getLast?_of_openAppend {t t' : FileTree} {path : String} {id : Nat} (h : t.Sound)
    (ho : t.openAppend path = .ok (t', id)) : path.toList.getLast? ≠ some '/' := by
  intro hslash
  unfold FileTree.openAppend at ho
  by_cases htrim : String.ofList (path.toList.reverse.dropWhile (· = '/')).reverse = ""
  · -- Such a path leads to the root, which is no file.
    have hroot : ∀ target, t.resolve true path = .ok target →
        ∃ l es, target = .found l (.dir es) := by
      intro target htarget
      obtain ⟨-, -, -, hwalk⟩ := walk_of_resolve htarget
      obtain ⟨es, hes⟩ := Node.kindAt_eq_dir_iff.mp (h.start_isDir path)
      rw [walk_blank _ _ _ _ (Path.blank_of_slashes htrim), walk, hes] at hwalk
      exact ⟨_, es, (Except.ok.inj hwalk).symm⟩
    simp only [hslash, htrim, ne_eq, not_true_eq_false, and_false, ↓reduceIte] at ho
    split at ho
    · cases ho
    · next hfound =>
      obtain ⟨_, _, ⟨⟩⟩ := hroot _ hfound
    · cases ho
    · next hfound =>
      obtain ⟨_, _, ⟨⟩⟩ := hroot _ hfound
  · simp only [hslash, ne_eq, htrim, not_false_eq_true, and_self, ↓reduceIte] at ho
    split at ho <;> cases ho

/-- A path that was opened leads to the file, and there are no more links than before. -/
theorem Linkless.resolve_opened {t t' : FileTree} {path : String} {id : Nat} (h : t.Linkless)
    (hsound : t.Sound) (ho : t.openAppend path = .ok (t', id)) :
    t'.Linkless ∧ ∃ l, t'.resolve false path = .ok (.found l (.file id)) := by
  have hslash := hsound.getLast?_of_openAppend ho
  unfold FileTree.openAppend at ho
  simp only [hslash, false_and, ↓reduceIte, h.resolve true] at ho
  split at ho
  · cases ho
  · next l _ hfound =>
    cases ho
    exact ⟨h, l, hfound⟩
  · cases ho
  · next d a habsent =>
    cases ho
    exact ⟨h.create hsound (hsound.resolve_absent habsent).1, d ++ [a],
      h.resolve_created hsound hslash habsent⟩

end Overseer.FileTree
