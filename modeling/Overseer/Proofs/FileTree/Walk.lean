import Overseer.Proofs.FileTree.Lookup

/-! Following a path. `Leads` says which directory the pieces of a path lead to, and depends on
directories and links only. `walk_of_leads` and `leads_of_walk`: a walk finds what it finds in
the directory that all pieces but the last lead to. -/

namespace Overseer.FileTree

/-- A piece of a path that names an entry of a directory. -/
def Plain (p : List Char) : Prop := p ≠ [] ∧ p ≠ ['.'] ∧ p ≠ ['.', '.']

/-- The pieces lead from one directory to another, through at most so many links. -/
inductive Leads (kind : Location → Kind → Prop) :
    Nat → Location → List (List Char) → Location → Prop
  | here {links : Nat} {d : Location} : kind d .dir → Leads kind links d [] d
  | stay {links : Nat} {l d : Location} {p : List Char} {rest : List (List Char)} :
      p = [] ∨ p = ['.'] → Leads kind links l rest d → Leads kind links l (p :: rest) d
  | up {links : Nat} {l d : Location} {rest : List (List Char)} :
      Leads kind links l.dropLast rest d → Leads kind links l (['.', '.'] :: rest) d
  | down {links : Nat} {l d : Location} {p : List Char} {rest : List (List Char)} :
      Plain p → (String.ofList p).utf8ByteSize ≤ maxNameBytes → kind (l ++ [String.ofList p]) .dir →
      Leads kind links (l ++ [String.ofList p]) rest d → Leads kind links l (p :: rest) d
  | through {links : Nat} {l d : Location} {p : List Char} {rest : List (List Char)}
      {target : String} :
      Plain p → (String.ofList p).utf8ByteSize ≤ maxNameBytes →
      kind (l ++ [String.ofList p]) (.link target) →
      Leads kind links (if Path.isAbsolute target.toList then [] else l)
        (Path.pieces target.toList ++ rest) d →
      Leads kind (links + 1) l (p :: rest) d

namespace Leads

variable {kind kind' : Location → Kind → Prop} {links : Nat} {l d : Location}
  {ps : List (List Char)}

theorem mono (h : Leads kind links l ps d)
    (hkind : ∀ x k, kind x k → (∀ id, k ≠ .file id) → kind' x k) :
    Leads kind' links l ps d := by
  induction h with
  | here hd => exact here (hkind _ _ hd (by simp))
  | stay hp _ ih => exact stay hp ih
  | up _ ih => exact up ih
  | down hp hs hk _ ih => exact down hp hs (hkind _ _ hk (by simp)) ih
  | through hp hs hk _ ih => exact through hp hs (hkind _ _ hk (by simp)) ih

theorem isDir (h : Leads kind links l ps d) : kind d .dir := by
  induction h with
  | here hd => exact hd
  | stay _ _ ih => exact ih
  | up _ ih => exact ih
  | down _ _ _ _ ih => exact ih
  | through _ _ _ _ ih => exact ih

theorem append_stay {p : List Char} (hp : p = [] ∨ p = ['.']) (h : Leads kind links l ps d) :
    Leads kind links l (ps ++ [p]) d := by
  induction h with
  | here hd => exact stay hp (here hd)
  | stay hq _ ih => exact stay hq ih
  | up _ ih => exact up ih
  | down hq hs hk _ ih => exact down hq hs hk ih
  | through hq hs hk _ ih =>
    rw [List.append_assoc] at ih
    exact through hq hs hk ih

theorem of_append_stay {p : List Char} (hp : p = [] ∨ p = ['.']) {qs : List (List Char)}
    (h : Leads kind links l qs d) (hq : qs = ps ++ [p]) : Leads kind links l ps d := by
  induction h generalizing ps with
  | here hd => simp at hq
  | stay hr hrest ih =>
    cases ps with
    | nil =>
      obtain ⟨rfl, rfl⟩ : _ = p ∧ _ = [] := by simpa using hq
      exact hrest
    | cons r ps =>
      obtain ⟨rfl, rfl⟩ : _ = r ∧ _ = ps ++ [p] := by simpa using hq
      exact stay hr (ih rfl)
  | up hrest ih =>
    cases ps with
    | nil =>
      obtain ⟨rfl, rfl⟩ : _ = p ∧ _ = [] := by simpa using hq
      simp at hp
    | cons r ps =>
      obtain ⟨rfl, rfl⟩ : _ = r ∧ _ = ps ++ [p] := by simpa using hq
      exact up (ih rfl)
  | down hr hs hk hrest ih =>
    cases ps with
    | nil =>
      obtain ⟨rfl, rfl⟩ : _ = p ∧ _ = [] := by simpa using hq
      exact absurd hp (not_or.mpr ⟨hr.1, hr.2.1⟩)
    | cons r ps =>
      obtain ⟨rfl, rfl⟩ : _ = r ∧ _ = ps ++ [p] := by simpa using hq
      exact down hr hs hk (ih rfl)
  | through hr hs hk hrest ih =>
    cases ps with
    | nil =>
      obtain ⟨rfl, rfl⟩ : _ = p ∧ _ = [] := by simpa using hq
      exact absurd hp (not_or.mpr ⟨hr.1, hr.2.1⟩)
    | cons r ps =>
      obtain ⟨rfl, rfl⟩ : _ = r ∧ _ = ps ++ [p] := by simpa using hq
      exact through hr hs hk (ih (by rw [List.append_assoc]))

theorem of_append_blank {gone : List (List Char)} (h : Leads kind links l (ps ++ gone) d)
    (hgone : ∀ p ∈ gone, p = [] ∨ p = ['.']) : Leads kind links l ps d := by
  induction gone generalizing ps with
  | nil => simpa using h
  | cons p gone ih =>
    rw [← List.singleton_append, ← List.append_assoc] at h
    have hps := ih h fun q hq => hgone q (List.mem_cons_of_mem _ hq)
    exact hps.of_append_stay (hgone p (by simp)) rfl

/-- Where no location has two kinds, the pieces lead to one directory only, and all that they pass
is of both. -/
theorem both (h : Leads kind links l ps d) {d' : Location} (h' : Leads kind' links l ps d')
    (hone : ∀ x k k', kind x k → kind' x k' → k' = k) :
    d' = d ∧ Leads (fun x k => kind x k ∧ kind' x k) links l ps d := by
  induction h with
  | here hd =>
    cases h' with
    | here hd' => exact ⟨rfl, .here ⟨hd, hd'⟩⟩
  | stay hp _ ih =>
    cases h' with
    | stay _ hrest' => exact ⟨(ih hrest').1, .stay hp (ih hrest').2⟩
    | up _ => simp at hp
    | down hplain => exact absurd hp (not_or.mpr ⟨hplain.1, hplain.2.1⟩)
    | through hplain => exact absurd hp (not_or.mpr ⟨hplain.1, hplain.2.1⟩)
  | up _ ih =>
    cases h' with
    | stay hp _ => simp at hp
    | up hrest' => exact ⟨(ih hrest').1, .up (ih hrest').2⟩
    | down hplain => exact absurd rfl hplain.2.2
    | through hplain => exact absurd rfl hplain.2.2
  | down hplain hs hk _ ih =>
    cases h' with
    | stay hp _ => exact absurd hp (not_or.mpr ⟨hplain.1, hplain.2.1⟩)
    | up _ => exact absurd rfl hplain.2.2
    | down _ _ hk' hrest' => exact ⟨(ih hrest').1, .down hplain hs ⟨hk, hk'⟩ (ih hrest').2⟩
    | through _ _ hk' _ => cases hone _ _ _ hk hk'
  | through hplain hs hk _ ih =>
    cases h' with
    | stay hp _ => exact absurd hp (not_or.mpr ⟨hplain.1, hplain.2.1⟩)
    | up _ => exact absurd rfl hplain.2.2
    | down _ _ hk' _ => cases hone _ _ _ hk hk'
    | through _ _ hk' hrest' =>
      cases hone _ _ _ hk hk'
      exact ⟨(ih hrest').1, .through hplain hs ⟨hk, hk'⟩ (ih hrest').2⟩

end Leads

/-! ## One step of a walk -/

section Step

variable {root : Node} {l : Location} {p : List Char}

theorem walk_stay (hp : p = [] ∨ p = ['.']) (follow : Bool) (links : Nat)
    (rest : List (List Char)) :
    walk root follow links l (p :: rest) = walk root follow links l rest := by
  rw [walk, if_pos hp]

theorem walk_up (root : Node) (follow : Bool) (links : Nat) (l : Location)
    (rest : List (List Char)) :
    walk root follow links l (['.', '.'] :: rest) = walk root follow links l.dropLast rest := by
  rw [walk, if_neg (by simp), if_pos rfl]

variable (hp : Plain p)

include hp

theorem walk_missing (hn : root.kindAt (l ++ [String.ofList p]) = none) (follow : Bool)
    (links : Nat) (rest : List (List Char)) (x : Location) (n : Node) :
    walk root follow links l (p :: rest) ≠ .ok (.found x n) := by
  rw [walk, if_neg (not_or.mpr ⟨hp.1, hp.2.1⟩), if_neg hp.2.2]
  simp only [Node.kindAt_eq_none_iff.mp hn]
  split
  · rintro ⟨⟩
  · split
    · rintro ⟨⟩
    · rintro ⟨⟩

variable (hs : (String.ofList p).utf8ByteSize ≤ maxNameBytes)

include hs

theorem walk_down (hk : root.kindAt (l ++ [String.ofList p]) = some .dir) (follow : Bool)
    (links : Nat) (rest : List (List Char)) :
    walk root follow links l (p :: rest) =
      walk root follow links (l ++ [String.ofList p]) rest := by
  obtain ⟨es, hes⟩ := Node.kindAt_eq_dir_iff.mp hk
  rw [walk, if_neg (not_or.mpr ⟨hp.1, hp.2.1⟩), if_neg hp.2.2]
  simp only [Nat.not_lt.mpr hs, ↓reduceIte, hes]

theorem walk_through {target : String}
    (hk : root.kindAt (l ++ [String.ofList p]) = some (.link target)) {follow : Bool} (links : Nat)
    {rest : List (List Char)} (hrest : ¬ (rest = [] ∧ follow = false)) :
    walk root follow (links + 1) l (p :: rest) =
      walk root follow links (if Path.isAbsolute target.toList then [] else l)
        (Path.pieces target.toList ++ rest) := by
  rw [walk, if_neg (not_or.mpr ⟨hp.1, hp.2.1⟩), if_neg hp.2.2]
  simp only [Nat.not_lt.mpr hs, ↓reduceIte, Node.kindAt_eq_link_iff.mp hk, hrest]

end Step

/-! ## Where a walk ends -/

/-- What a name in a directory stands for. -/
def entryAt (root : Node) (d : Location) (name : String) : Target :=
  match root.get? (d ++ [name]) with
  | some n => .found (d ++ [name]) n
  | none => .absent d name

/-- What a walk gives whose last piece is this one. -/
def lastStep (root : Node) (d : Location) (a : List Char) : Except FileError Target :=
  if maxNameBytes < (String.ofList a).utf8ByteSize then .error .nameTooLong
  else .ok (entryAt root d (String.ofList a))

theorem walk_last (root : Node) (follow : Bool) (links : Nat) (d : Location) {a : List Char}
    (ha : Plain a)
    (hlink : (String.ofList a).utf8ByteSize ≤ maxNameBytes → follow = true →
      ∀ target, root.kindAt (d ++ [String.ofList a]) ≠ some (.link target)) :
    walk root follow links d [a] = lastStep root d a := by
  obtain ⟨h₁, h₂, h₃⟩ := ha
  rw [walk, if_neg (not_or.mpr ⟨h₁, h₂⟩), if_neg h₃, lastStep]
  by_cases hs : maxNameBytes < (String.ofList a).utf8ByteSize
  · simp only [if_pos hs]
  · simp only [if_neg hs, entryAt]
    cases hn : root.get? (d ++ [String.ofList a]) with
    | none => simp
    | some n =>
      cases n with
      | dir es => simp [walk, hn]
      | file id => simp
      | link target =>
        cases follow with
        | false => simp
        | true =>
          have hk : root.kindAt (d ++ [String.ofList a]) = some (.link target) :=
            Node.kindAt_eq_link_iff.mpr hn
          exact absurd hk (hlink (Nat.not_lt.mp hs) rfl target)

theorem walk_of_leads {root : Node} {links : Nat} {l d : Location} {ps : List (List Char)}
    (h : Leads (root.kindAt · = some ·) links l ps d) (follow : Bool) {a : List Char} (ha : Plain a)
    (hlink : (String.ofList a).utf8ByteSize ≤ maxNameBytes → follow = true →
      ∀ target, root.kindAt (d ++ [String.ofList a]) ≠ some (.link target)) :
    walk root follow links l (ps ++ [a]) = lastStep root d a := by
  induction h with
  | here _ => exact walk_last root follow _ _ ha hlink
  | stay hp _ ih =>
    rw [List.cons_append, walk_stay hp]
    exact ih hlink
  | up _ ih =>
    rw [List.cons_append, walk_up]
    exact ih hlink
  | down hp hs hk _ ih =>
    rw [List.cons_append, walk_down hp hs hk]
    exact ih hlink
  | through hp hs hk _ ih =>
    rw [List.cons_append, walk_through hp hs hk _ (by simp), ← List.append_assoc]
    exact ih hlink

/-- Where a walk ends with a name, nothing on the way to its directory is missing. -/
private theorem kindAt_ne_none {root : Node} {links : Nat} {l : Location} {p : List Char}
    {rest : List (List Char)} {a : List Char} {target : Target} (hp : Plain p) (ha : Plain a)
    (hwalk : walk root false links l (p :: (rest ++ [a])) = .ok target) :
    root.kindAt (l ++ [String.ofList p]) ≠ none := by
  intro hnone
  rw [walk, if_neg (not_or.mpr ⟨hp.1, hp.2.1⟩), if_neg hp.2.2] at hwalk
  simp only [Node.kindAt_eq_none_iff.mp hnone] at hwalk
  split at hwalk
  · cases hwalk
  · have hblank : (rest ++ [a]).all (· = []) = false := by simp [ha.1]
    rw [hblank] at hwalk
    cases hwalk

/-- Some locations, none of them above the directory, lie beside the way to it if a walk along
that way comes to its end with each of them gone. -/
theorem Leads.beside {root : Node} {links : Nat} {l d : Location} {ps : List (List Char)}
    (h : Leads (root.kindAt · = some ·) links l ps d) {a : List Char} (ha : Plain a)
    (gone : Location → Node) {X : Location → Prop} (hd : ∀ x, X x → ¬ x <+: d)
    (hgone : ∀ x, X x → ∀ y,
      (gone x).kindAt y = if x <+: y then none else root.kindAt y)
    (hwalk : ∀ x, X x → ∃ target, walk (gone x) false links l (ps ++ [a]) = .ok target) :
    Leads (fun y k => root.kindAt y = some k ∧ ∀ x, X x → ¬ x <+: y) links l ps d := by
  -- What a step passes is there in each of the changed trees, and so below none of the locations.
  have hbeside : ∀ {l : Location} {p : List Char} {rest : List (List Char)} {links : Nat}, Plain p →
      (∀ x, X x → ∃ target, walk (gone x) false links l (p :: (rest ++ [a])) = .ok target) →
      ∀ x, X x → ¬ x <+: l ++ [String.ofList p] := by
    intro l p rest links hp hwalk x hx hbelow
    obtain ⟨target, htarget⟩ := hwalk x hx
    exact kindAt_ne_none hp ha htarget (by rw [hgone x hx, if_pos hbelow])
  induction h with
  | here hk => exact .here ⟨hk, hd⟩
  | stay hp _ ih =>
    refine .stay hp (ih hd fun x hx => ?_)
    obtain ⟨target, htarget⟩ := hwalk x hx
    rw [List.cons_append, walk_stay hp] at htarget
    exact ⟨target, htarget⟩
  | up _ ih =>
    refine .up (ih hd fun x hx => ?_)
    obtain ⟨target, htarget⟩ := hwalk x hx
    rw [List.cons_append, walk_up] at htarget
    exact ⟨target, htarget⟩
  | down hp hs hk _ ih =>
    have hout := hbeside hp hwalk
    refine .down hp hs ⟨hk, hout⟩ (ih hd fun x hx => ?_)
    obtain ⟨target, htarget⟩ := hwalk x hx
    have hk' := ((hgone x hx _).trans (if_neg (hout x hx))).trans hk
    rw [List.cons_append, walk_down hp hs hk'] at htarget
    exact ⟨target, htarget⟩
  | through hp hs hk _ ih =>
    have hout := hbeside hp hwalk
    refine .through hp hs ⟨hk, hout⟩ (ih hd fun x hx => ?_)
    obtain ⟨target, htarget⟩ := hwalk x hx
    have hk' := ((hgone x hx _).trans (if_neg (hout x hx))).trans hk
    rw [List.cons_append, walk_through hp hs hk' _ (by simp), ← List.append_assoc] at htarget
    exact ⟨target, htarget⟩

/-- What a path that is there says of itself. -/
theorem walk_of_resolve {t : FileTree} {follow : Bool} {path : String} {target : Target}
    (h : t.resolve follow path = .ok target) :
    Char.ofNat 0 ∉ path.toList ∧ path.toList ≠ [] ∧ path.utf8ByteSize ≤ maxPathBytes ∧
      walk t.root follow maxLinks (if Path.isAbsolute path.toList then [] else t.working)
        (Path.pieces path.toList) = .ok target := by
  unfold resolve at h
  dsimp only at h
  split at h
  · cases h
  · next hclean =>
    split at h
    · cases h
    · next hne =>
      split at h
      · cases h
      · next hsize => exact ⟨by simpa using hclean, hne, Nat.not_lt.mp hsize, h⟩

/-- Empty pieces at the end of a path add nothing to a directory. -/
theorem walk_blank (root : Node) (follow : Bool) (links : Nat) (l : Location)
    {todo : List (List Char)} (h : ∀ p ∈ todo, p = []) :
    walk root follow links l todo = walk root follow links l [] := by
  induction todo with
  | nil => rfl
  | cons p todo ih =>
    rw [walk_stay (.inl (h p (by simp)))]
    exact ih fun q hq => h q (by simp [hq])

/-- What a walk finds stands where it was found. -/
theorem walk_found {root : Node} {follow : Bool} {links : Nat} {l x : Location}
    {todo : List (List Char)} {n : Node} (h : walk root follow links l todo = .ok (.found x n)) :
    root.get? x = some n := by
  fun_induction walk root follow links l todo with
  | case1 links l m hm =>
    cases h
    exact hm
  | case3 links l p rest hp ih => exact ih h
  | case4 links l rest hp ih => exact ih h
  | case8 links l p rest hp hup name hs es hn ih => exact ih h
  | case9 links l p hp hup name hs id hn =>
    cases h
    exact hn
  | case11 links l p rest hp hup name hs to_ hn hrest =>
    cases h
    exact hn
  | case13 l p rest hp hup name hs to_ hn hrest links ih => exact ih h
  | case2 | case5 | case6 | case7 | case10 | case12 => simp at h

/-- A path that leads to a directory is there, whether links at its end are followed or not. -/
theorem walk_dir_of_leads {root : Node} {links : Nat} {l d : Location} {ps : List (List Char)}
    (h : Leads (root.kindAt · = some ·) links l ps d) :
    (∃ es, walk root true links l ps = .ok (.found d (.dir es))) ∧
      ∃ x n, walk root false links l ps = .ok (.found x n) := by
  induction h with
  | here hd =>
    obtain ⟨es, hes⟩ := Node.kindAt_eq_dir_iff.mp hd
    exact ⟨⟨es, by simp [walk, hes]⟩, _, _, by rw [walk, hes]⟩
  | stay hp _ ih =>
    rw [walk_stay hp, walk_stay hp]
    exact ih
  | up _ ih =>
    rw [walk_up, walk_up]
    exact ih
  | down hp hs hk _ ih =>
    rw [walk_down hp hs hk, walk_down hp hs hk]
    exact ih
  | @through links l d p rest target hp hs hk _ ih =>
    constructor
    · rw [walk_through hp hs hk _ (by simp)]
      exact ih.1
    · by_cases hrest : rest = []
      · rw [hrest, walk_last root false _ _ hp (by simp), lastStep, if_neg (Nat.not_lt.mpr hs),
          entryAt, Node.kindAt_eq_link_iff.mp hk]
        exact ⟨_, _, rfl⟩
      · rw [walk_through hp hs hk _ (by simp [hrest])]
        exact ih.2

theorem isDir_dropLast {n : Node} {l : Location} (h : n.kindAt l = some .dir) :
    n.kindAt l.dropLast = some .dir := by
  by_cases hl : l = []
  · subst hl
    exact h
  · apply Node.kindAt_of_below (r := [l.getLast hl]) (by simp)
    rw [List.dropLast_concat_getLast]
    intro hnone
    simp [Node.kindAt, hnone] at h

theorem isDir_root {n : Node} {l : Location} (h : n.kindAt l = some .dir) :
    n.kindAt [] = some .dir := by
  by_cases hl : l = []
  · subst hl
    exact h
  · apply Node.kindAt_of_below hl
    intro hnone
    rw [List.nil_append] at hnone
    simp [Node.kindAt, hnone] at h

private theorem last_of_cons {p : List Char} {rest : List (List Char)}
    (h : (p :: rest).getLast? ≠ some []) : rest.getLast? ≠ some [] := by
  cases rest with
  | nil => simp
  | cons q rest => simpa using h

private theorem nil_of_blank {rest : List (List Char)} (h : rest.all (· = []) = true)
    (hlast : rest.getLast? ≠ some []) : rest = [] := by
  rcases List.eq_nil_or_concat rest with rfl | ⟨init, p, rfl⟩
  · rfl
  · have hp : p = [] := by simpa using List.all_eq_true.mp h p (by simp)
    subst hp
    simp at hlast

/-- Where a path that ends with a name leads to a file or to a free place, all pieces before the
last lead to a directory. -/
theorem leads_of_walk {root : Node} {links : Nat} {l : Location} {todo : List (List Char)}
    {target : Target} (h : walk root false links l todo = .ok target)
    (hl : root.kindAt l = some .dir) (hlast : todo.getLast? ≠ some [])
    (hend : ∀ x n, target = .found x n → ∃ id, n = .file id) :
    ∃ ps a d, todo = ps ++ [a] ∧ Plain a ∧
      Leads (root.kindAt · = some ·) links l ps d := by
  fun_induction walk root false links l todo with
  | case1 links l n hn =>
    obtain ⟨id, rfl⟩ := hend l n (Except.ok.inj h).symm
    simp [Node.kindAt, hn, Node.kind] at hl
  | case3 links l p rest hp ih =>
    obtain ⟨ps, a, d, rfl, ha, hleads⟩ := ih h hl (last_of_cons hlast)
    exact ⟨p :: ps, a, d, rfl, ha, .stay hp hleads⟩
  | case4 links l rest hp ih =>
    obtain ⟨ps, a, d, rfl, ha, hleads⟩ := ih h (isDir_dropLast hl) (last_of_cons hlast)
    exact ⟨['.', '.'] :: ps, a, d, rfl, ha, .up hleads⟩
  | case6 links l p rest hp hup name hs hn hrest =>
    have hnil := nil_of_blank hrest (last_of_cons hlast)
    subst hnil
    exact ⟨[], p, l, rfl, ⟨fun e => hp (.inl e), fun e => hp (.inr e), hup⟩, .here hl⟩
  | case8 links l p rest hp hup name hs es hn ih =>
    have hk : root.kindAt (l ++ [name]) = some .dir := Node.kindAt_eq_dir_iff.mpr ⟨es, hn⟩
    obtain ⟨ps, a, d, rfl, ha, hleads⟩ := ih h hk (last_of_cons hlast)
    exact ⟨p :: ps, a, d, rfl, ha,
      .down ⟨fun e => hp (.inl e), fun e => hp (.inr e), hup⟩ (Nat.not_lt.mp hs) hk hleads⟩
  | case9 links l p hp hup name hs id hn =>
    exact ⟨[], p, l, rfl, ⟨fun e => hp (.inl e), fun e => hp (.inr e), hup⟩, .here hl⟩
  | case11 links l p rest hp hup name hs to_ hn hrest =>
    obtain ⟨id, hid⟩ := hend _ _ (Except.ok.inj h).symm
    cases hid
  | case13 l p rest hp hup name hs to_ hn hrest links ih =>
    obtain ⟨ps', b, rfl⟩ : ∃ ps' b, rest = ps' ++ [b] := by
      rcases List.eq_nil_or_concat rest with rfl | ⟨ps', b, rfl⟩
      · exact absurd ⟨rfl, rfl⟩ hrest
      · exact ⟨ps', b, List.concat_eq_append⟩
    have hstart : root.kindAt (if Path.isAbsolute to_.toList then [] else l) = some .dir := by
      split
      · exact isDir_root hl
      · exact hl
    have hlast' : (Path.pieces to_.toList ++ (ps' ++ [b])).getLast? ≠ some [] := by
      rw [← List.append_assoc, List.getLast?_concat, ← List.getLast?_concat (l := ps')]
      exact last_of_cons hlast
    obtain ⟨ps, a, d, heq, ha, hleads⟩ := ih h hstart hlast'
    rw [← List.append_assoc] at heq
    obtain ⟨rfl, hb⟩ := List.append_inj' heq rfl
    cases hb
    exact ⟨p :: ps', b, d, rfl, ha,
      .through ⟨fun e => hp (.inl e), fun e => hp (.inr e), hup⟩ (Nat.not_lt.mp hs)
        (Node.kindAt_eq_link_iff.mpr hn) hleads⟩
  | case2 | case5 | case7 | case10 | case12 => simp at h

/-- Making a directory that is there already changes nothing. -/
theorem makeDirs_of_found {t : FileTree} {path : String} {d x : Location}
    {es : List (String × Node)} {n : Node}
    (hdir : t.resolve true path = .ok (.found d (.dir es)))
    (hthere : t.resolve false path = .ok (.found x n)) : t.makeDirs path = (t, .ok ()) := by
  have hisDir : t.isDir path = true := by
    rw [isDir, hdir]
    rfl
  have hmake : t.makeDir path = .error .alreadyExists := by
    rw [makeDir, hthere]
    rfl
  rcases ancestors_cases path.toList with h | ⟨rest, h⟩
  · rw [makeDirs, h]
    rfl
  · rw [makeDirs, h, makeNearest, String.ofList_toList, hmake]
    simp only [hisDir, ↓reduceIte]
    rfl

end Overseer.FileTree
