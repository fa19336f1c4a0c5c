import Overseer.Proofs.FileTree.Lookup

/-! Trees that differ only in the order in which directories list their names. Every path leads to
the same place in both (`walk_shuffled`), so files read the same (`readFile_shuffled`), and a
directory has the same names, if in another order (`list_shuffled`). -/

namespace Overseer

namespace Node

/-- The same is found at every location, but directories may list their names in other orders. -/
structure Shuffled (n n' : Node) : Prop where
  kinds : ∀ l, n'.kindAt l = n.kindAt l
  names : ∀ l es es', n.get? l = some (.dir es) → n'.get? l = some (.dir es') →
    (es.map (·.1)).Perm (es'.map (·.1))

namespace Shuffled

variable {n n' : Node} (h : n.Shuffled n') {l : Location}

include h

theorem get?_none (hl : n.get? l = none) : n'.get? l = none :=
  kindAt_eq_none_iff.mp ((h.kinds l).trans (kindAt_eq_none_iff.mpr hl))

theorem get?_file {id : Nat} (hl : n.get? l = some (.file id)) : n'.get? l = some (.file id) :=
  kindAt_eq_file_iff.mp ((h.kinds l).trans (kindAt_eq_file_iff.mpr hl))

theorem get?_link {target : String} (hl : n.get? l = some (.link target)) :
    n'.get? l = some (.link target) :=
  kindAt_eq_link_iff.mp ((h.kinds l).trans (kindAt_eq_link_iff.mpr hl))

theorem get?_dir {es : List (String × Node)} (hl : n.get? l = some (.dir es)) :
    ∃ es', n'.get? l = some (.dir es') ∧ (es.map (·.1)).Perm (es'.map (·.1)) := by
  obtain ⟨es', hl'⟩ := kindAt_eq_dir_iff.mp ((h.kinds l).trans (kindAt_eq_dir_iff.mpr ⟨es, hl⟩))
  exact ⟨es', hl', h.names l es es' hl hl'⟩

end Shuffled

/-! ## Ways to list in another order -/

section Entries

variable {es es' : List (String × Node)}

theorem Shuffled.refl (n : Node) : n.Shuffled n where
  kinds _ := rfl
  names l es es' h h' := by
    cases h.symm.trans h'
    exact .rfl

/-- A directory is shuffled if its names are, and what stands under each of them. -/
theorem Shuffled.dir (hnames : (es.map (·.1)).Perm (es'.map (·.1)))
    (h : ∀ a, Option.Rel Shuffled (es.lookup a) (es'.lookup a)) :
    (Node.dir es).Shuffled (.dir es') where
  kinds l := by
    cases l with
    | nil => rfl
    | cons a l =>
      have hrel := h a
      simp only [kindAt, get?, entries]
      generalize es.lookup a = n at hrel ⊢
      generalize es'.lookup a = n' at hrel ⊢
      cases hrel with
      | none => rfl
      | some hn => exact hn.kinds l
  names l fs fs' hfs hfs' := by
    cases l with
    | nil =>
      cases hfs
      cases hfs'
      exact hnames
    | cons a l =>
      have hrel := h a
      simp only [get?, entries] at hfs hfs'
      generalize es.lookup a = n at hrel hfs
      generalize es'.lookup a = n' at hrel hfs'
      cases hrel with
      | none => cases hfs
      | some hn => exact hn.names l fs fs' hfs hfs'

theorem lookup_perm (hnames : (es.map (·.1)).Nodup) (h : es.Perm es') (a : String) :
    es.lookup a = es'.lookup a := by
  have hnames' : (es'.map (·.1)).Nodup := (h.map _).nodup_iff.mp hnames
  by_cases ha : a ∈ es.map (·.1)
  · obtain ⟨⟨b, n⟩, hmem, rfl⟩ := List.mem_map.mp ha
    rw [lookup_of_mem hnames hmem, lookup_of_mem hnames' (h.mem_iff.mp hmem)]
  · have ha' : a ∉ es'.map (·.1) := fun hmem => ha ((h.map _).mem_iff.mpr hmem)
    rw [lookup_eq_none_of_not_mem ha, lookup_eq_none_of_not_mem ha']

/-- Entries under different names may stand in any order. -/
theorem Shuffled.perm (hnames : (es.map (·.1)).Nodup) (h : es.Perm es') :
    (Node.dir es).Shuffled (.dir es') := by
  refine .dir (h.map _) fun a => ?_
  rw [lookup_perm hnames h a]
  cases es'.lookup a with
  | none => exact .none
  | some n => exact .some (.refl n)

theorem Shuffled.entry {n n' : Node} (h : n.Shuffled n') (before : List (String × Node))
    (a : String) (after : List (String × Node)) :
    (Node.dir (before ++ (a, n) :: after)).Shuffled (.dir (before ++ (a, n') :: after)) := by
  refine .dir (by simp) fun b => ?_
  rw [List.lookup_append, List.lookup_append, List.lookup_cons, List.lookup_cons]
  cases before.lookup b with
  | some m => exact .some (.refl m)
  | none =>
    cases b == a with
    | true => exact .some h
    | false =>
      simp only [Option.none_or]
      cases after.lookup b with
      | none => exact .none
      | some m => exact .some (.refl m)

end Entries

end Node

namespace FileTree

structure Shuffled (t t' : FileTree) : Prop where
  root : t.root.Shuffled t'.root
  contents : t'.contents = t.contents
  working : t'.working = t.working

/-! ## Paths -/

/-- Two walks end at the same place, or fail alike. -/
inductive SameEnd (root root' : Node) : Except FileError Target → Except FileError Target → Prop
  | failed (e : FileError) : SameEnd root root' (.error e) (.error e)
  | absent (d : Location) (name : String) :
    SameEnd root root' (.ok (.absent d name)) (.ok (.absent d name))
  | found {l : Location} {n n' : Node} (h : root.get? l = some n) (h' : root'.get? l = some n') :
    SameEnd root root' (.ok (.found l n)) (.ok (.found l n'))

theorem walk_shuffled {root root' : Node} (h : root.Shuffled root') (follow : Bool) (links : Nat)
    (l : Location) (todo : List (List Char)) :
    SameEnd root root' (walk root follow links l todo) (walk root' follow links l todo) := by
  fun_induction walk root follow links l todo with
  | case1 links l n hn =>
    obtain ⟨n', hn', -⟩ : ∃ n', root'.get? l = some n' ∧ n'.kind = n.kind :=
      Option.map_eq_some_iff.mp ((h.kinds l).trans (congrArg (Option.map Node.kind) hn))
    rw [walk, hn']
    exact .found hn hn'
  | case2 links l hn =>
    rw [walk, h.get?_none hn]
    exact .failed _
  | case3 links l p rest hstay ih =>
    rw [walk, if_pos hstay]
    exact ih
  | case4 links l rest hstay ih =>
    rw [walk, if_neg hstay, if_pos rfl]
    exact ih
  | case5 links l p rest hstay hup name hsize =>
    rw [walk, if_neg hstay, if_neg hup, if_pos hsize]
    exact .failed _
  | case6 links l p rest hstay hup name hsize hn hrest =>
    rw [walk, if_neg hstay, if_neg hup, if_neg hsize, h.get?_none hn,
      if_pos hrest]
    exact .absent _ _
  | case7 links l p rest hstay hup name hsize hn hrest =>
    rw [walk, if_neg hstay, if_neg hup, if_neg hsize, h.get?_none hn,
      if_neg hrest]
    exact .failed _
  | case8 links l p rest hstay hup name hsize es hn ih =>
    obtain ⟨es', hn', -⟩ := h.get?_dir hn
    rw [walk, if_neg hstay, if_neg hup, if_neg hsize, hn']
    exact ih
  | case9 links l p hstay hup name hsize id hn =>
    have hn' := h.get?_file hn
    rw [walk, if_neg hstay, if_neg hup, if_neg hsize, hn']
    exact .found hn hn'
  | case10 links l p rest hstay hup name hsize id hn hrest =>
    rw [walk, if_neg hstay, if_neg hup, if_neg hsize, h.get?_file hn]
    dsimp only
    rw [if_neg hrest]
    exact .failed _
  | case11 links l p rest hstay hup name hsize target hn hrest =>
    have hn' := h.get?_link hn
    rw [walk, if_neg hstay, if_neg hup, if_neg hsize, hn']
    dsimp only
    rw [if_pos hrest]
    exact .found hn hn'
  | case12 l p rest hstay hup name hsize target hn hrest =>
    rw [walk, if_neg hstay, if_neg hup, if_neg hsize, h.get?_link hn]
    dsimp only
    rw [if_neg hrest]
    exact .failed _
  | case13 l p rest hstay hup name hsize target hn hrest links ih =>
    rw [walk, if_neg hstay, if_neg hup, if_neg hsize, h.get?_link hn]
    dsimp only
    rw [if_neg hrest]
    exact ih

section Shuffled

variable {t t' : FileTree} (h : t.Shuffled t')

include h

theorem resolve_shuffled (follow : Bool) (path : String) :
    SameEnd t.root t'.root (t.resolve follow path) (t'.resolve follow path) := by
  unfold resolve
  dsimp only
  split
  · exact .failed _
  · split
    · exact .failed _
    · split
      · exact .failed _
      · rw [h.working]
        exact walk_shuffled h.root _ _ _ _

theorem pathExists_shuffled (path : String) : t'.pathExists path = t.pathExists path := by
  have hend := resolve_shuffled h true path
  unfold pathExists
  generalize t.resolve true path = r at hend ⊢
  generalize t'.resolve true path = r' at hend ⊢
  cases hend with
  | failed e => rfl
  | absent d name => rfl
  | found hn hn' => rfl

theorem readFile_shuffled (path : String) : t'.readFile path = t.readFile path := by
  have hbytes (id : Nat) : t'.bytes id = t.bytes id := by rw [bytes, h.contents, bytes]
  have hend := resolve_shuffled h true path
  unfold readFile
  generalize t.resolve true path = r at hend ⊢
  generalize t'.resolve true path = r' at hend ⊢
  cases hend with
  | failed e => rfl
  | absent d name => rfl
  | @found l n n' hn hn' =>
    cases n with
    | file id =>
      cases (h.root.get?_file hn).symm.trans hn'
      exact congrArg Except.ok (hbytes id)
    | link target =>
      cases (h.root.get?_link hn).symm.trans hn'
      rfl
    | dir es =>
      obtain ⟨es', hes', -⟩ := h.root.get?_dir hn
      cases hes'.symm.trans hn'
      rfl

/-- Both trees list no names at a path, or the same names. -/
theorem list_shuffled (path : String) :
    (∃ e, t.list path = .error e ∧ t'.list path = .error e) ∨
      ∃ names names', t.list path = .ok names ∧ t'.list path = .ok names' ∧
        names.Perm names' := by
  have hend := resolve_shuffled h true path
  unfold list
  generalize t.resolve true path = r at hend ⊢
  generalize t'.resolve true path = r' at hend ⊢
  cases hend with
  | failed e => exact .inl ⟨e, rfl, rfl⟩
  | absent d name => exact .inl ⟨_, rfl, rfl⟩
  | @found l n n' hn hn' =>
    cases n with
    | file id =>
      cases (h.root.get?_file hn).symm.trans hn'
      exact .inl ⟨_, rfl, rfl⟩
    | link target =>
      cases (h.root.get?_link hn).symm.trans hn'
      exact .inl ⟨_, rfl, rfl⟩
    | dir es =>
      obtain ⟨es', hes', hnames⟩ := h.root.get?_dir hn
      cases hes'.symm.trans hn'
      exact .inr ⟨_, _, rfl, rfl, hnames⟩

end Shuffled

end FileTree

end Overseer
