import Overseer.Proofs.FileTree.Walk
import Overseer.Proofs.Path.Pieces

/-! What a directory's list says of the paths below it: a name that is not listed leads nowhere
(`resolve_unlisted`). -/

namespace Overseer.FileTree

/-- A path that is found, with all links followed, to be a directory leads there. -/
theorem leads_of_found_dir {root : Node} {links : Nat} {l d : Location} {ps : List (List Char)}
    {es : List (String × Node)} (h : walk root true links l ps = .ok (.found d (.dir es))) :
    Leads (root.kindAt · = some ·) links l ps d := by
  fun_induction walk root true links l ps with
  | case1 links l n hn =>
    cases h
    exact .here (Node.kindAt_eq_dir_iff.mpr ⟨es, hn⟩)
  | case3 links l p rest hp ih => exact .stay hp (ih h)
  | case4 links l rest hp ih => exact .up (ih h)
  | case8 links l p rest hp hup name hs es' hn ih =>
    exact .down ⟨fun e => hp (.inl e), fun e => hp (.inr e), hup⟩ (Nat.not_lt.mp hs)
      (Node.kindAt_eq_dir_iff.mpr ⟨es', hn⟩) (ih h)
  | case13 l p rest hp hup name hs to_ hn hrest links ih =>
    exact .through ⟨fun e => hp (.inl e), fun e => hp (.inr e), hup⟩ (Nat.not_lt.mp hs)
      (Node.kindAt_eq_link_iff.mpr hn) (ih h)
  | case2 | case5 | case6 | case7 | case9 | case10 | case11 | case12 => simp_all

theorem list_found {t : FileTree} {path : String} {names : List String}
    (h : t.list path = .ok names) :
    ∃ d es, t.resolve true path = .ok (.found d (.dir es)) ∧ names = es.map (·.1) := by
  unfold list at h
  cases hr : t.resolve true path with
  | error e => simp [hr, bind, Except.bind] at h
  | ok target =>
    cases target with
    | absent d a => simp [hr, bind, Except.bind] at h
    | found d n =>
      cases n with
      | file id => simp [hr, bind, Except.bind] at h
      | link target => simp [hr, bind, Except.bind] at h
      | dir es =>
        simp only [hr, bind, Except.bind, Except.ok.injEq] at h
        exact ⟨d, es, rfl, h.symm⟩

theorem pathExists_of_list {t : FileTree} {path : String} {names : List String}
    (h : t.list path = .ok names) : t.pathExists path = true := by
  obtain ⟨d, es, hfound, -⟩ := list_found h
  rw [pathExists, hfound]

/-- Nothing is found at or below a name that its directory does not have. -/
theorem walk_unlisted {root : Node} {links : Nat} {l d : Location} {ps : List (List Char)}
    (h : Leads (root.kindAt · = some ·) links l ps d) {a : List Char} (ha : Plain a)
    (habsent : root.get? (d ++ [String.ofList a]) = none) (follow : Bool)
    (more : List (List Char)) (x : Location) (n : Node) :
    walk root follow links l (ps ++ a :: more) ≠ .ok (.found x n) := by
  induction h with
  | here _ => exact walk_missing ha (Node.kindAt_eq_none_iff.mpr habsent) follow _ more x n
  | stay hp _ ih =>
    rw [List.cons_append, walk_stay hp]
    exact ih habsent
  | up _ ih =>
    rw [List.cons_append, walk_up]
    exact ih habsent
  | down hp hs hk _ ih =>
    rw [List.cons_append, walk_down hp hs hk]
    exact ih habsent
  | through hp hs hk _ ih =>
    rw [List.cons_append, walk_through hp hs hk _ (by simp), ← List.append_assoc]
    exact ih habsent

/-- What a path finds whose last piece is an entry, and no link, of the directory that the others
lead to. -/
theorem resolve_of_leads {t : FileTree} {path : String} (ps : List (List Char)) (a : List Char)
    (d : Location) {n : Node} (hclean : Char.ofNat 0 ∉ path.toList)
    (hsize : path.utf8ByteSize ≤ maxPathBytes) (hpieces : Path.pieces path.toList = ps ++ [a])
    (hleads : Leads (t.root.kindAt · = some ·) maxLinks
      (if Path.isAbsolute path.toList then [] else t.working) ps d)
    (ha : Plain a) (hname : (String.ofList a).utf8ByteSize ≤ maxNameBytes)
    (hn : t.root.get? (d ++ [String.ofList a]) = some n) (hlink : ∀ target, n ≠ .link target) :
    t.resolve true path = .ok (.found (d ++ [String.ofList a]) n) := by
  have hne : path.toList ≠ [] := by
    intro hnil
    have hlast := congrArg List.getLast? hpieces
    rw [hnil, List.getLast?_concat] at hlast
    exact ha.1 (Option.some.inj hlast).symm
  have hclean' : path.toList.contains (Char.ofNat 0) = false := by simpa using hclean
  have hlast : ∀ target, t.root.kindAt (d ++ [String.ofList a]) ≠ some (.link target) := by
    intro target hk
    rw [Node.kindAt_eq_link_iff, hn] at hk
    exact hlink target (Option.some.inj hk)
  rw [resolve]
  simp only [hclean', Bool.false_eq_true, ↓reduceIte, hne, Nat.not_lt.mpr hsize, hpieces]
  rw [walk_of_leads hleads true ha fun _ _ => hlast, lastStep, if_neg (Nat.not_lt.mpr hname),
    entryAt, hn]

section Unlisted

variable {t : FileTree} {dir name : String} {names : List String}

/-- A path to a name that its directory does not list leads to no node, and neither does one that
goes on from there. -/
theorem resolve_unlisted (h : t.list dir = .ok names) (hname : name ∉ names)
    (hplain : Plain name.toList) (hslash : '/' ∉ name.toList) {path : String}
    (more : List (List Char))
    (hpieces : Path.pieces path.toList =
      Path.pieces (Path.join dir.toList name.toList) ++ more)
    (habsolute : Path.isAbsolute path.toList =
      Path.isAbsolute (Path.join dir.toList name.toList)) (l : Location) (n : Node) :
    t.resolve true path ≠ .ok (.found l n) := by
  intro hfound
  obtain ⟨d, es, hdir, rfl⟩ := list_found h
  obtain ⟨ps, htrailing, hjoin⟩ := Path.pieces_join dir.toList
  obtain ⟨hjoined, hstart⟩ := hjoin _ hslash
  obtain ⟨-, -, -, hwalk⟩ := walk_of_resolve hdir
  obtain ⟨-, -, -, hbelow⟩ := walk_of_resolve hfound
  rw [hpieces, habsolute, hjoined, hstart, List.append_assoc, List.singleton_append] at hbelow
  have hleads : Leads (t.root.kindAt · = some ·) maxLinks
      (if Path.isAbsolute dir.toList then [] else t.working) ps d := by
    have hall := leads_of_found_dir hwalk
    rcases htrailing with hps | hps
    · rwa [hps] at hall
    · rw [hps] at hall
      exact hall.of_append_stay (Or.inl rfl) rfl
  have habsent : t.root.get? (d ++ [String.ofList name.toList]) = none := by
    rw [Node.get?_append, walk_found hwalk, String.ofList_toList]
    show (es.lookup name).bind _ = none
    rw [Node.lookup_eq_none_of_not_mem hname]
    rfl
  exact walk_unlisted hleads hplain habsent true more l n hbelow

variable {path : String} (hnone : ∀ l n, t.resolve true path ≠ .ok (.found l n))

include hnone

theorem pathExists_of_unresolved : t.pathExists path = false := by
  unfold pathExists
  split
  · next hfound => exact absurd hfound (hnone _ _)
  · rfl

theorem readFile_of_unresolved : ∃ e, t.readFile path = .error e := by
  unfold readFile
  cases hr : t.resolve true path with
  | error e => exact ⟨e, rfl⟩
  | ok target =>
    cases target with
    | found l n => exact absurd hr (hnone l n)
    | absent d a => exact ⟨.notFound, rfl⟩

theorem list_of_unresolved : ∃ e, t.list path = .error e := by
  unfold list
  cases hr : t.resolve true path with
  | error e => exact ⟨e, rfl⟩
  | ok target =>
    cases target with
    | found l n => exact absurd hr (hnone l n)
    | absent d a => exact ⟨.notFound, rfl⟩

end Unlisted

end Overseer.FileTree
