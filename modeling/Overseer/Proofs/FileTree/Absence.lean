import Overseer.Proofs.FileTree.Sound
import Overseer.Proofs.FileTree.Walk

/-! A path whose last node is taken away finds nothing, wherever its links lead (`walk_gone`); one
that found nothing finds a file made where it ended, or nothing still (`walk_made`). Neither asks
that relative paths start from a directory, since a move may take that along. -/

namespace Overseer

namespace Node

theorem alterEntry_of_lookup {a : String} {f : Option Node → Option Node}
    {es : List (String × Node)} (h : f (es.lookup a) = es.lookup a) : alterEntry a f es = es := by
  induction es with
  | nil =>
    have hf : f none = none := h
    simp [alterEntry, hf]
  | cons e es ih =>
    obtain ⟨b, n⟩ := e
    by_cases hb : b = a
    · subst hb
      rw [List.lookup_cons, beq_self_eq_true] at h
      simp [alterEntry, h]
    · have hba : (a == b) = false := beq_eq_false_iff_ne.mpr (Ne.symm hb)
      rw [List.lookup_cons, hba] at h
      rw [alterEntry, if_neg hb, ih h]

/-- Where there is no directory no entry can be changed. -/
theorem alter_of_not_dir {n : Node} (d : Location) (a : String) (hd : n.kindAt d ≠ some .dir)
    (f : Option Node → Option Node) : n.alter (d ++ [a]) f = n := by
  induction d generalizing n with
  | nil =>
    cases n with
    | dir es => exact absurd rfl hd
    | file id => rfl
    | link target => rfl
  | cons c d ih =>
    cases n with
    | dir es =>
      rw [List.cons_append, alter_cons _ (by simp), alterEntry_of_lookup]
      cases hc : es.lookup c with
      | none => rfl
      | some m =>
        rw [Option.map_some, ih]
        intro hm
        apply hd
        obtain ⟨es', hes'⟩ := kindAt_eq_dir_iff.mp hm
        exact kindAt_eq_dir_iff.mpr ⟨es', by simp [get?, entries, hc, hes']⟩
    | file id => cases d <;> rfl
    | link target => cases d <;> rfl

end Node

namespace FileTree

/-- A file made anywhere keeps a tree intact; without a directory it has no name. -/
theorem Intact.create_any {t : FileTree} (h : t.Intact) (d : Location) (a : String) :
    (t.create (d ++ [a])).1.Intact := by
  by_cases hd : t.root.kindAt d = some .dir
  · exact h.create hd
  · have hroot : (t.create (d ++ [a])).1.root = t.root := Node.alter_of_not_dir d a hd _
    refine ⟨by rw [hroot]; exact h.distinct, fun l id hl => ?_, by rw [hroot]; exact h.alone⟩
    rw [hroot] at hl
    exact Nat.lt_trans (h.stored l id hl) (by simp [FileTree.create])

/-! ## What a path says of its last piece -/

private theorem last_cons {p a : List Char} {rest : List (List Char)}
    (h : (p :: rest).getLast? = some a) : rest = [] ∧ p = a ∨ rest.getLast? = some a := by
  cases rest with
  | nil => exact .inl ⟨rfl, by simpa using h⟩
  | cons q rest => exact .inr (by simpa using h)

/-- A path that ends with no directory ends with a name, and one that is not too long. -/
theorem last_of_walk {root : Node} {follow : Bool} {links : Nat} {l : Location}
    {todo : List (List Char)} {a : List Char} {target : Target}
    (h : walk root follow links l todo = .ok target) (hl : root.kindAt l = some .dir)
    (hend : ∀ x es, target ≠ .found x (.dir es)) (hlast : todo.getLast? = some a) (ha : a ≠ []) :
    Plain a ∧ (String.ofList a).utf8ByteSize ≤ maxNameBytes := by
  fun_induction walk root follow links l todo with
  | case1 => simp at hlast
  | case3 links l p rest hp ih =>
    rcases last_cons hlast with ⟨rfl, -⟩ | hlast
    · obtain ⟨es, hes⟩ := Node.kindAt_eq_dir_iff.mp hl
      rw [walk, hes] at h
      exact absurd (Except.ok.inj h).symm (hend l es)
    · exact ih h hl hlast
  | case4 links l rest hp ih =>
    rcases last_cons hlast with ⟨rfl, -⟩ | hlast
    · obtain ⟨es, hes⟩ := Node.kindAt_eq_dir_iff.mp (isDir_dropLast hl)
      rw [walk, hes] at h
      exact absurd (Except.ok.inj h).symm (hend _ es)
    · exact ih h (isDir_dropLast hl) hlast
  | case6 links l p rest hp hup name hs hn hrest =>
    rcases last_cons hlast with ⟨-, rfl⟩ | hlast
    · exact ⟨⟨fun e => hp (.inl e), fun e => hp (.inr e), hup⟩, Nat.not_lt.mp hs⟩
    · have hblank := List.all_eq_true.mp hrest a (List.mem_of_getLast? hlast)
      exact absurd (by simpa using hblank) ha
  | case8 links l p rest hp hup name hs es hn ih =>
    rcases last_cons hlast with ⟨-, rfl⟩ | hlast
    · exact ⟨⟨fun e => hp (.inl e), fun e => hp (.inr e), hup⟩, Nat.not_lt.mp hs⟩
    · exact ih h (Node.kindAt_eq_dir_iff.mpr ⟨es, hn⟩) hlast
  | case9 links l p hp hup name hs id hn =>
    rcases last_cons hlast with ⟨-, rfl⟩ | hlast
    · exact ⟨⟨fun e => hp (.inl e), fun e => hp (.inr e), hup⟩, Nat.not_lt.mp hs⟩
    · cases hlast
  | case11 links l p rest hp hup name hs to_ hn hrest =>
    rcases last_cons hlast with ⟨-, rfl⟩ | hlast
    · exact ⟨⟨fun e => hp (.inl e), fun e => hp (.inr e), hup⟩, Nat.not_lt.mp hs⟩
    · rw [hrest.1] at hlast
      cases hlast
  | case13 l p rest hp hup name hs to_ hn hrest links ih =>
    rcases last_cons hlast with ⟨-, rfl⟩ | hlast
    · exact ⟨⟨fun e => hp (.inl e), fun e => hp (.inr e), hup⟩, Nat.not_lt.mp hs⟩
    · have hstart : root.kindAt (if Path.isAbsolute to_.toList then [] else l) = some .dir := by
        split
        · exact isDir_root hl
        · exact hl
      exact ih h hstart (by rw [List.getLast?_append, hlast, Option.some_or])
  | case2 | case5 | case7 | case10 | case12 => simp at h

/-- Where something is found, the pieces before the last lead to a directory, and what is found has
the last one for its name there unless that is a link and was followed. -/
theorem leads_of_found {root : Node} {follow : Bool} {links : Nat} {l x : Location}
    {todo : List (List Char)} {a : List Char} {n : Node}
    (h : walk root follow links l todo = .ok (.found x n)) (hlast : todo.getLast? = some a)
    (ha : Plain a) :
    ∃ d, Leads (root.kindAt · = some ·) links l todo.dropLast d ∧
      (follow = false → x = d ++ [String.ofList a]) := by
  -- A directory is there if it has an entry.
  have hhere : ∀ {links : Nat} {l : Location} {p : List Char} {m : Node},
      root.get? (l ++ [String.ofList p]) = some m →
        Leads (root.kindAt · = some ·) links l [p].dropLast l := by
    intro links l p m hm
    exact .here (Node.kindAt_of_below (r := [String.ofList p]) (by simp) (by simp [hm]))
  fun_induction walk root follow links l todo with
  | case1 => simp at hlast
  | case3 links l p rest hp ih =>
    rcases last_cons hlast with ⟨-, rfl⟩ | hlast
    · exact absurd hp (not_or.mpr ⟨ha.1, ha.2.1⟩)
    · obtain ⟨d, hleads, hx⟩ := ih h hlast
      rw [List.dropLast_cons_of_ne_nil (by rintro rfl; cases hlast)]
      exact ⟨d, .stay hp hleads, hx⟩
  | case4 links l rest hp ih =>
    rcases last_cons hlast with ⟨-, rfl⟩ | hlast
    · exact absurd rfl ha.2.2
    · obtain ⟨d, hleads, hx⟩ := ih h hlast
      rw [List.dropLast_cons_of_ne_nil (by rintro rfl; cases hlast)]
      exact ⟨d, .up hleads, hx⟩
  | case8 links l p rest hp hup name hs es hn ih =>
    rcases last_cons hlast with ⟨rfl, rfl⟩ | hlast
    · rw [walk, hn] at h
      cases h
      exact ⟨l, hhere hn, fun _ => rfl⟩
    · obtain ⟨d, hleads, hx⟩ := ih h hlast
      rw [List.dropLast_cons_of_ne_nil (by rintro rfl; cases hlast)]
      exact ⟨d, .down ⟨fun e => hp (.inl e), fun e => hp (.inr e), hup⟩ (Nat.not_lt.mp hs)
        (Node.kindAt_eq_dir_iff.mpr ⟨es, hn⟩) hleads, hx⟩
  | case9 links l p hp hup name hs id hn =>
    rcases last_cons hlast with ⟨-, rfl⟩ | hlast
    · cases h
      exact ⟨l, hhere hn, fun _ => rfl⟩
    · cases hlast
  | case11 links l p rest hp hup name hs to_ hn hrest =>
    obtain ⟨rfl, -⟩ := hrest
    rcases last_cons hlast with ⟨-, rfl⟩ | hlast
    · cases h
      exact ⟨l, hhere hn, fun _ => rfl⟩
    · cases hlast
  | case13 l p rest hp hup name hs to_ hn hrest links ih =>
    rcases last_cons hlast with ⟨rfl, rfl⟩ | hlast
    · exact ⟨l, hhere hn, fun hfollow => absurd ⟨rfl, hfollow⟩ hrest⟩
    · have hne : rest ≠ [] := by
        rintro rfl
        cases hlast
      obtain ⟨d, hleads, hx⟩ := ih h (by rw [List.getLast?_append, hlast, Option.some_or])
      rw [List.dropLast_append_of_ne_nil hne] at hleads
      rw [List.dropLast_cons_of_ne_nil hne]
      exact ⟨d, .through ⟨fun e => hp (.inl e), fun e => hp (.inr e), hup⟩ (Nat.not_lt.mp hs)
        (Node.kindAt_eq_link_iff.mpr hn) hleads, hx⟩
  | case2 | case5 | case6 | case7 | case10 | case12 => simp at h

theorem Leads.append_blank {kind : Location → Kind → Prop} {links : Nat} {l d : Location}
    {ps gone : List (List Char)} (h : Leads kind links l ps d)
    (hgone : ∀ p ∈ gone, p = [] ∨ p = ['.']) : Leads kind links l (ps ++ gone) d := by
  induction gone generalizing ps with
  | nil => simpa using h
  | cons p gone ih =>
    rw [← List.singleton_append, ← List.append_assoc]
    exact ih (h.append_stay (hgone p (by simp))) fun q hq => hgone q (List.mem_cons_of_mem _ hq)

/-! ## After the node at its end is gone -/

/-- A path finds nothing once what its last piece named is gone, if all else on its way is still
there. Where the way leads through what is gone, it ends before. -/
theorem walk_gone {root root' : Node} {links : Nat} {l d : Location} {ps : List (List Char)}
    {a : List Char} (h : Leads (root.kindAt · = some ·) links l ps d) (ha : Plain a)
    (hgone : ∀ x, (d ++ [String.ofList a]) <+: x → root'.kindAt x = none)
    (hkept : ∀ x k, ¬ (d ++ [String.ofList a]) <+: x → root.kindAt x = some k →
      root'.kindAt x = some k) (follow : Bool) (x : Location) (n : Node) :
    walk root' follow links l (ps ++ [a]) ≠ .ok (.found x n) := by
  induction h with
  | here _ => exact walk_missing ha (hgone _ (List.prefix_refl _)) follow _ [] x n
  | stay hp _ ih =>
    rw [List.cons_append, walk_stay hp]
    exact ih hgone hkept
  | up _ ih =>
    rw [List.cons_append, walk_up]
    exact ih hgone hkept
  | @down links l d p rest hp hs hk _ ih =>
    by_cases hway : (d ++ [String.ofList a]) <+: l ++ [String.ofList p]
    · exact walk_missing hp (hgone _ hway) follow links (rest ++ [a]) x n
    · rw [List.cons_append, walk_down hp hs (hkept _ _ hway hk)]
      exact ih hgone hkept
  | @through links l d p rest target hp hs hk _ ih =>
    by_cases hway : (d ++ [String.ofList a]) <+: l ++ [String.ofList p]
    · exact walk_missing hp (hgone _ hway) follow (links + 1) (rest ++ [a]) x n
    · rw [List.cons_append, walk_through hp hs (hkept _ _ hway hk) links (by simp),
        ← List.append_assoc]
      exact ih hgone hkept

/-! ## After a file is made at its end -/

theorem absent_free {root : Node} {follow : Bool} {links : Nat} {l d : Location} {a : String}
    {todo : List (List Char)} (h : walk root follow links l todo = .ok (.absent d a)) :
    root.kindAt (d ++ [a]) = none := by
  fun_induction walk root follow links l todo with
  | case3 links l p rest hp ih => exact ih h
  | case4 links l rest hp ih => exact ih h
  | case6 links l p rest hp hup name hs hn hrest =>
    obtain ⟨rfl, rfl⟩ := Target.absent.inj (Except.ok.inj h)
    exact Node.kindAt_eq_none_iff.mpr hn
  | case8 links l p rest hp hup name hs es hn ih => exact ih h
  | case13 l p rest hp hup name hs to_ hn hrest links ih => exact ih h
  | case1 | case2 | case5 | case7 | case9 | case10 | case11 | case12 => simp at h

/-- A path that found nothing finds the file that is made where it ended, or nothing. -/
theorem walk_made {root root' : Node} {follow : Bool} {links : Nat} {l d x : Location} {a : String}
    {todo : List (List Char)} {id : Nat} {n : Node}
    (h : walk root follow links l todo = .ok (.absent d a))
    (hmade : ∀ m, root'.get? (d ++ [a]) = some m → m = .file id)
    (hkept : ∀ y k, root.kindAt y = some k → root'.kindAt y = some k)
    (hfound : walk root' follow links l todo = .ok (.found x n)) : n = .file id := by
  fun_induction walk root follow links l todo with
  | case3 links l p rest hp ih =>
    rw [walk_stay hp] at hfound
    exact ih h hfound
  | case4 links l rest hp ih =>
    rw [walk_up] at hfound
    exact ih h hfound
  | case6 links l p rest hp hup name hs hn hrest =>
    obtain ⟨rfl, hname⟩ := Target.absent.inj (Except.ok.inj h)
    cases hm : root'.get? (l ++ [String.ofList p]) with
    | none =>
      exact absurd hfound (walk_missing ⟨fun e => hp (.inl e), fun e => hp (.inr e), hup⟩
        (Node.kindAt_eq_none_iff.mpr hm) follow links rest x n)
    | some m =>
      rw [← hname] at hmade
      rw [hmade m hm] at hm
      have hsize : (String.ofList p).utf8ByteSize ≤ maxNameBytes := Nat.not_lt.mp hs
      rw [walk, if_neg hp, if_neg hup] at hfound
      simp only [Nat.not_lt.mpr hsize, ↓reduceIte, hm] at hfound
      split at hfound
      · cases hfound
        rfl
      · cases hfound
  | case8 links l p rest hp hup name hs es hn ih =>
    rw [walk_down ⟨fun e => hp (.inl e), fun e => hp (.inr e), hup⟩ (Nat.not_lt.mp hs)
      (hkept _ _ (Node.kindAt_eq_dir_iff.mpr ⟨es, hn⟩))] at hfound
    exact ih h hfound
  | case13 l p rest hp hup name hs to_ hn hrest links ih =>
    rw [walk_through ⟨fun e => hp (.inl e), fun e => hp (.inr e), hup⟩ (Nat.not_lt.mp hs)
      (hkept _ _ (Node.kindAt_eq_link_iff.mpr hn)) links hrest] at hfound
    exact ih h hfound
  | case1 | case2 | case5 | case7 | case9 | case10 | case11 | case12 => simp at h

/-- A file made where nothing was is all that is new. -/
theorem Intact.get?_create {t : FileTree} (h : t.Intact) {d : Location} {a : String}
    (hfree : t.root.kindAt (d ++ [a]) = none) :
    (∀ n, (t.create (d ++ [a])).1.root.get? (d ++ [a]) = some n → n = .file t.contents.size) ∧
      ∀ x k, t.root.kindAt x = some k → (t.create (d ++ [a])).1.root.kindAt x = some k := by
  by_cases hd : t.root.kindAt d = some .dir
  · constructor
    · intro n hn
      have hself := Node.get?_alter_below h.distinct d a hd (some (.file t.contents.size)) []
      exact (Option.some.inj (hself.symm.trans hn)).symm
    · intro x k hk
      have hout : ¬ (d ++ [a]) <+: x := by
        rintro ⟨r, rfl⟩
        rw [Node.kindAt, Node.get?_append, Node.kindAt_eq_none_iff.mp hfree] at hk
        cases hk
      exact (Node.kindAt_alter_beside h.distinct d a hd _ hout).trans hk
  · have hroot : (t.create (d ++ [a])).1.root = t.root := Node.alter_of_not_dir d a hd _
    rw [hroot]
    refine ⟨fun n hn => ?_, fun x k hk => hk⟩
    rw [Node.kindAt_eq_none_iff.mp hfree] at hn
    cases hn

/-- Opening a file to append to it gives the one that the path led to, or an empty one more; the
path finds no other then. -/
theorem Intact.openAppend {t t' : FileTree} {path : String} {id : Nat} (h : t.Intact)
    (hopen : t.openAppend path = .ok (t', id)) :
    t'.Intact ∧ id < t'.contents.size ∧
      (∀ x n, t'.resolve true path = .ok (.found x n) → n = .file id) ∧
      (t' = t ∧ (∃ x, t.resolve true path = .ok (.found x (.file id))) ∨
        id = t.contents.size ∧ t'.contents = t.contents.push .empty ∧ t'.working = t.working) := by
  unfold FileTree.openAppend at hopen
  dsimp only at hopen
  split at hopen
  · split at hopen <;> cases hopen
  · split at hopen
    · cases hopen
    · next x id' hfound =>
      cases hopen
      obtain ⟨-, -, -, hwalk⟩ := walk_of_resolve hfound
      refine ⟨h, h.stored x id (Node.kindAt_eq_file_iff.mpr (walk_found hwalk)), fun y n hn => ?_,
        .inl ⟨rfl, x, hfound⟩⟩
      rw [hfound] at hn
      cases hn
      rfl
    · cases hopen
    · next d a habsent =>
      cases hopen
      obtain ⟨-, -, -, hwalk⟩ := walk_of_resolve habsent
      obtain ⟨hmade, hkept⟩ := h.get?_create (absent_free hwalk)
      refine ⟨h.create_any d a, by simp, fun y n hn => ?_, .inr ⟨rfl, rfl, rfl⟩⟩
      obtain ⟨-, -, -, hwalk'⟩ := walk_of_resolve hn
      exact walk_made hwalk hmade hkept hwalk'

end FileTree

end Overseer
