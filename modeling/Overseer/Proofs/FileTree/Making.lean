import Overseer.Proofs.FileTree.Sound
import Overseer.Proofs.FileTree.Walk

/-! Making directories, and opening a file that may have to be made, keeps a tree sound. The empty
tree is. -/

namespace Overseer.FileTree

/-- Where nothing is found, the directory is there and lacks the name. -/
theorem walk_absent {root : Node} {follow : Bool} {links : Nat} {l d : Location} {a : String}
    {todo : List (List Char)} (h : walk root follow links l todo = .ok (.absent d a))
    (hl : root.kindAt l = some .dir) :
    root.kindAt d = some .dir ∧ root.kindAt (d ++ [a]) = none := by
  fun_induction walk root follow links l todo with
  | case3 links l p rest hp ih => exact ih h hl
  | case4 links l rest hp ih => exact ih h (isDir_dropLast hl)
  | case6 links l p rest hp hup name hs hn hrest =>
    simp only [Except.ok.injEq, Target.absent.injEq] at h
    obtain ⟨rfl, rfl⟩ := h
    exact ⟨hl, Node.kindAt_eq_none_iff.mpr hn⟩
  | case8 links l p rest hp hup name hs es hn ih =>
    exact ih h (Node.kindAt_eq_dir_iff.mpr ⟨es, hn⟩)
  | case13 l p rest hp hup name hs to_ hn hrest links ih =>
    apply ih h
    split
    · exact isDir_root hl
    · exact hl
  | case1 | case2 | case5 | case7 | case9 | case10 | case11 | case12 => simp at h

namespace Sound

variable {t t' : FileTree}

theorem start_isDir (h : t.Sound) (path : String) :
    t.root.kindAt (if Path.isAbsolute path.toList then [] else t.working) = some .dir := by
  split
  · exact isDir_root h.working
  · exact h.working

theorem resolve_absent (h : t.Sound) {follow : Bool} {path : String} {d : Location} {a : String}
    (hr : t.resolve follow path = .ok (.absent d a)) :
    t.root.kindAt d = some .dir ∧ t.root.kindAt (d ++ [a]) = none := by
  unfold resolve at hr
  dsimp only at hr
  split at hr
  · cases hr
  · split at hr
    · cases hr
    · split at hr
      · cases hr
      · exact walk_absent hr (h.start_isDir path)

/-- A node without files put where there was nothing. -/
theorem put_new (h : t.Sound) {d : Location} {a : String} (hd : t.root.kindAt d = some .dir)
    (hfree : t.root.kindAt (d ++ [a]) = none) {x : Node} (hx : x.Distinct)
    (hnoFile : ∀ r id, x.kindAt r ≠ some (.file id)) : (t.put (d ++ [a]) (some x)).Sound := by
  refine of_intact ?_ (h.working_put hd (h.not_above_working (by simp [hfree])) (some x))
  apply h.intact.put hd
  · rintro _ ⟨⟩
    exact hx
  · rintro _ r id ⟨⟩ hr
    exact absurd hr (hnoFile r id)
  · rintro _ r r' id ⟨⟩ hr
    exact absurd hr (hnoFile r id)
  · rintro _ r l id ⟨⟩ hr
    exact absurd hr (hnoFile r id)

theorem makeDir (h : t.Sound) {path : String} (hm : t.makeDir path = .ok t') : t'.Sound := by
  unfold FileTree.makeDir at hm
  cases hr : t.resolve false path with
  | error e => simp [hr, bind, Except.bind] at hm
  | ok target =>
    cases target with
    | found l n => simp [hr, bind, Except.bind] at hm
    | absent d a =>
      obtain ⟨hd, hfree⟩ := h.resolve_absent hr
      simp only [hr, bind, Except.bind, Except.ok.injEq] at hm
      subst hm
      exact h.put_new hd hfree Node.distinct_empty Node.kindAt_empty_ne_file

theorem ensureDir (h : t.Sound) {path : String} (hm : t.ensureDir path = .ok t') : t'.Sound := by
  unfold FileTree.ensureDir at hm
  split at hm
  · next made hmade =>
    cases hm
    exact h.makeDir hmade
  · split at hm
    · cases hm
      exact h
    · cases hm

theorem makeNearest (h : t.Sound) (paths : List (List Char)) (missing : List String) :
    (t.makeNearest paths missing).1.Sound := by
  induction paths generalizing missing with
  | nil => exact h
  | cons p rest ih =>
    rw [FileTree.makeNearest]
    split
    · next made hmade => exact h.makeDir hmade
    · exact ih _
    · split
      · exact h
      · exact h

theorem makeEach (h : t.Sound) (paths : List String) : (t.makeEach paths).1.Sound := by
  induction paths generalizing t with
  | nil => exact h
  | cons p rest ih =>
    rw [FileTree.makeEach]
    split
    · next made hmade => exact ih (h.ensureDir hmade)
    · exact h

theorem makeDirs (h : t.Sound) (path : String) : (t.makeDirs path).1.Sound := by
  have hnearest := h.makeNearest (ancestors path.toList) []
  unfold FileTree.makeDirs
  split
  · next made missing hmade =>
    rw [hmade] at hnearest
    exact hnearest.makeEach missing
  · next made e hmade =>
    rw [hmade] at hnearest
    exact hnearest

theorem openAppend (h : t.Sound) {path : String} {id : Nat}
    (ho : t.openAppend path = .ok (t', id)) : t'.Sound := by
  unfold FileTree.openAppend at ho
  dsimp only at ho
  split at ho
  · split at ho <;> cases ho
  · split at ho
    · cases ho
    · cases ho
      exact h
    · cases ho
    · next d a hr =>
      obtain ⟨hd, hfree⟩ := h.resolve_absent hr
      cases ho
      exact h.create hd hfree

end Sound

theorem sound_empty : empty.Sound := by
  have hnoFile : ∀ l id, empty.root.kindAt l ≠ some (.file id) := by
    intro l id
    cases l with
    | nil => simp [empty, Node.kindAt, Node.get?, Node.kind]
    | cons a r =>
      by_cases ha : a = "work"
      · subst ha
        cases r <;> simp [empty, Node.kindAt, Node.get?, Node.entries, Node.kind]
      · simp [empty, Node.kindAt, Node.get?, Node.entries, List.lookup_cons,
          beq_eq_false_iff_ne.mpr ha]
  constructor
  · apply Node.distinct_dir_iff.mpr
    refine ⟨by decide, fun a n ha => ?_⟩
    by_cases hw : a = "work"
    · subst hw
      cases ha
      exact Node.distinct_empty
    · simp [List.lookup_cons, beq_eq_false_iff_ne.mpr hw] at ha
  · intro l id hl
    exact absurd hl (hnoFile l id)
  · intro l l' id hl
    exact absurd hl (hnoFile l id)
  · rfl

end Overseer.FileTree
