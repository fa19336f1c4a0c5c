import Overseer.FileTree

/-! What a change at one location does to the nodes found at the others. `get?_alter_below`
and `get?_alter_apart` give the nodes themselves, `kindAt_alter_beside` their kinds, which is
all that following a path depends on. -/

namespace Overseer

/-- What a node is, without what it holds. -/
inductive Kind where
  | file (id : Nat)
  | link (target : String)
  | dir
  deriving DecidableEq, Repr

namespace Node

def kind : Node → Kind
  | .file id => .file id
  | .link target => .link target
  | .dir _ => .dir

def kindAt (n : Node) (l : Location) : Option Kind := (n.get? l).map kind

/-- No directory, at this node or below, has two entries of one name. -/
def Distinct (n : Node) : Prop :=
  ∀ l es, n.get? l = some (.dir es) → (es.map (·.1)).Nodup

theorem kind_eq_file_iff {n : Node} {id : Nat} : n.kind = .file id ↔ n = .file id := by
  cases n <;> simp [kind]

theorem get?_append (n : Node) (l r : Location) :
    n.get? (l ++ r) = (n.get? l).bind (get? r) := by
  induction l generalizing n with
  | nil => rfl
  | cons a l ih =>
    simp only [List.cons_append, get?]
    cases n.entries.lookup a with
    | none => rfl
    | some m => exact ih m

theorem kindAt_eq_dir_iff {n : Node} {l : Location} :
    n.kindAt l = some .dir ↔ ∃ es, n.get? l = some (.dir es) := by
  unfold kindAt
  cases n.get? l with
  | none => simp
  | some m => cases m <;> simp [kind]

theorem kindAt_eq_file_iff {n : Node} {l : Location} {id : Nat} :
    n.kindAt l = some (.file id) ↔ n.get? l = some (.file id) := by
  unfold kindAt
  cases n.get? l with
  | none => simp
  | some m => cases m <;> simp [kind]

theorem kindAt_eq_link_iff {n : Node} {l : Location} {target : String} :
    n.kindAt l = some (.link target) ↔ n.get? l = some (.link target) := by
  unfold kindAt
  cases n.get? l with
  | none => simp
  | some m => cases m <;> simp [kind]

theorem kindAt_eq_none_iff {n : Node} {l : Location} : n.kindAt l = none ↔ n.get? l = none := by
  simp [kindAt]

/-- Only directories have anything below them. -/
theorem kindAt_of_below {n : Node} {l r : Location} (hr : r ≠ [])
    (h : n.get? (l ++ r) ≠ none) : n.kindAt l = some .dir := by
  rw [get?_append] at h
  cases hl : n.get? l with
  | none => simp [hl] at h
  | some m =>
    cases m with
    | dir es => simp [kindAt, hl, kind]
    | file id => cases r <;> simp_all [get?, entries]
    | link target => cases r <;> simp_all [get?, entries]

/-! ## Entries -/

theorem lookup_alterEntry_ne (f : Option Node → Option Node) {a b : String}
    (es : List (String × Node)) (h : b ≠ a) :
    (alterEntry a f es).lookup b = es.lookup b := by
  induction es with
  | nil =>
    cases hf : f none with
    | none => simp [alterEntry, hf]
    | some n => simp [alterEntry, hf, List.lookup_cons, beq_eq_false_iff_ne.mpr h]
  | cons e es ih =>
    obtain ⟨c, n⟩ := e
    by_cases hc : c = a
    · subst hc
      cases hf : f (some n) with
      | none => simp [alterEntry, hf, List.lookup_cons, beq_eq_false_iff_ne.mpr h]
      | some n' => simp [alterEntry, hf, List.lookup_cons, beq_eq_false_iff_ne.mpr h]
    · simp only [alterEntry, if_neg hc, List.lookup_cons]
      rw [ih]

theorem lookup_eq_none_of_not_mem {a : String} {es : List (String × Node)}
    (h : a ∉ es.map (·.1)) : es.lookup a = none := by
  refine List.lookup_eq_none_iff.mpr fun e he => ?_
  have hne : a ≠ e.1 := fun heq => h (List.mem_map.mpr ⟨e, he, heq.symm⟩)
  exact bne_iff_ne.mpr hne

theorem lookup_of_mem {a : String} {n : Node} {es : List (String × Node)}
    (hnames : (es.map (·.1)).Nodup) (h : (a, n) ∈ es) : es.lookup a = some n := by
  induction es with
  | nil => cases h
  | cons e es ih =>
    rw [List.map_cons, List.nodup_cons] at hnames
    rw [List.lookup_cons]
    rcases List.mem_cons.mp h with rfl | h
    · rw [beq_self_eq_true]
    · have hne : a ≠ e.1 := by
        rintro rfl
        exact hnames.1 (List.mem_map.mpr ⟨_, h, rfl⟩)
      rw [beq_eq_false_iff_ne.mpr hne]
      exact ih hnames.2 h

theorem lookup_alterEntry_self (f : Option Node → Option Node) (a : String)
    {es : List (String × Node)} (hes : (es.map (·.1)).Nodup) :
    (alterEntry a f es).lookup a = f (es.lookup a) := by
  induction es with
  | nil => cases hf : f none <;> simp [alterEntry, hf]
  | cons e es ih =>
    obtain ⟨c, n⟩ := e
    simp only [List.map_cons, List.nodup_cons] at hes
    by_cases hc : c = a
    · subst hc
      cases hf : f (some n) with
      | none => simp [alterEntry, hf, lookup_eq_none_of_not_mem hes.1]
      | some n' => simp [alterEntry, hf]
    · have hac : (a == c) = false := beq_eq_false_iff_ne.mpr (Ne.symm hc)
      simp only [alterEntry, if_neg hc, List.lookup_cons, hac]
      exact ih hes.2

private theorem mem_names_alterEntry (f : Option Node → Option Node) {a b : String}
    {es : List (String × Node)} (h : b ∈ (alterEntry a f es).map (·.1)) :
    b = a ∨ b ∈ es.map (·.1) := by
  induction es with
  | nil => cases hf : f none <;> simp_all [alterEntry]
  | cons e es ih =>
    obtain ⟨c, n⟩ := e
    by_cases hc : c = a
    · subst hc
      cases hf : f (some n) <;> simp_all [alterEntry]
    · simp only [alterEntry, if_neg hc, List.map_cons, List.mem_cons] at h ⊢
      rcases h with h | h
      · exact Or.inr (Or.inl h)
      · rcases ih h with h | h
        · exact Or.inl h
        · exact Or.inr (Or.inr h)

theorem nodup_names_alterEntry (f : Option Node → Option Node) (a : String)
    {es : List (String × Node)} (hes : (es.map (·.1)).Nodup) :
    ((alterEntry a f es).map (·.1)).Nodup := by
  induction es with
  | nil => cases hf : f none <;> simp [alterEntry, hf]
  | cons e es ih =>
    obtain ⟨c, n⟩ := e
    simp only [List.map_cons, List.nodup_cons] at hes
    by_cases hc : c = a
    · subst hc
      cases hf : f (some n) <;> simp_all [alterEntry]
    · simp only [alterEntry, if_neg hc, List.map_cons, List.nodup_cons]
      refine ⟨fun hm => ?_, ih hes.2⟩
      rcases mem_names_alterEntry f hm with h | h
      · exact hc h
      · exact hes.1 h

/-! ## Directories -/

theorem distinct_dir_iff {es : List (String × Node)} :
    (Node.dir es).Distinct ↔
      (es.map (·.1)).Nodup ∧ ∀ a n, es.lookup a = some n → n.Distinct := by
  constructor
  · intro h
    refine ⟨h [] es rfl, fun a n ha l es' hl => h (a :: l) es' ?_⟩
    simp [get?, entries, ha, hl]
  · rintro ⟨hes, h⟩ l es' hl
    cases l with
    | nil =>
      simp only [get?, Option.some.injEq, dir.injEq] at hl
      exact hl ▸ hes
    | cons a l =>
      obtain ⟨n, ha, hn⟩ := Option.bind_eq_some_iff.mp hl
      exact h a n ha l es' hn

theorem distinct_file (id : Nat) : (Node.file id).Distinct := by
  intro l es h
  cases l <;> simp [get?, entries] at h

theorem distinct_empty : (Node.dir []).Distinct :=
  distinct_dir_iff.mpr ⟨List.nodup_nil, fun _ _ h => by simp at h⟩

theorem kindAt_empty_ne_file (l : Location) (id : Nat) :
    (Node.dir []).kindAt l ≠ some (.file id) := by
  cases l with
  | nil => simp [kindAt, get?, kind]
  | cons a r => simp [kindAt, get?, entries]

theorem kindAt_empty_ne_link (l : Location) (target : String) :
    (Node.dir []).kindAt l ≠ some (.link target) := by
  cases l with
  | nil => simp [kindAt, get?, kind]
  | cons a r => simp [kindAt, get?, entries]

theorem Distinct.get? {n m : Node} (h : n.Distinct) {l : Location} (hl : n.get? l = some m) :
    m.Distinct := by
  intro r es hr
  apply h (l ++ r) es
  rw [get?_append, hl]
  exact hr

theorem alter_cons (a : String) {l : Location} (hl : l ≠ []) (f : Option Node → Option Node)
    (es : List (String × Node)) :
    (Node.dir es).alter (a :: l) f = .dir (alterEntry a (Option.map (alter l f)) es) := by
  cases l with
  | nil => exact absurd rfl hl
  | cons b r => rfl

theorem alter_singleton (a : String) (f : Option Node → Option Node)
    (es : List (String × Node)) : (Node.dir es).alter [a] f = .dir (alterEntry a f es) := rfl

/-- The directory on the way down to a location, and what is left of the way. -/
theorem kindAt_cons {n : Node} {a : String} {l : Location}
    (h : n.kindAt (a :: l) = some .dir) :
    ∃ es m, n = .dir es ∧ es.lookup a = some m ∧ m.kindAt l = some .dir := by
  have hn : n.kindAt [] = some .dir := by
    apply kindAt_of_below (r := a :: l) (by simp)
    intro hnone
    rw [List.nil_append] at hnone
    simp [kindAt, hnone] at h
  obtain ⟨es, hes⟩ := kindAt_eq_dir_iff.mp hn
  obtain ⟨es', hes'⟩ := kindAt_eq_dir_iff.mp h
  simp only [Node.get?, Option.some.injEq] at hes
  subst hes
  obtain ⟨m, hm, hl⟩ := Option.bind_eq_some_iff.mp hes'
  exact ⟨es, m, rfl, hm, kindAt_eq_dir_iff.mpr ⟨es', hl⟩⟩

theorem Distinct.alter {n : Node} (hn : n.Distinct) (d : Location) (a : String)
    (hd : n.kindAt d = some .dir) (m : Option Node) (hm : ∀ x, m = some x → x.Distinct) :
    (n.alter (d ++ [a]) fun _ => m).Distinct := by
  induction d generalizing n with
  | nil =>
    obtain ⟨es, hes⟩ := kindAt_eq_dir_iff.mp hd
    simp only [Node.get?, Option.some.injEq] at hes
    subst hes
    obtain ⟨hnames, hbelow⟩ := distinct_dir_iff.mp hn
    rw [List.nil_append, alter_singleton, distinct_dir_iff]
    refine ⟨nodup_names_alterEntry _ _ hnames, fun b x hb => ?_⟩
    by_cases hba : b = a
    · subst hba
      rw [lookup_alterEntry_self _ _ hnames] at hb
      exact hm x hb
    · rw [lookup_alterEntry_ne _ _ hba] at hb
      exact hbelow b x hb
  | cons c d ih =>
    obtain ⟨es, x, rfl, hc, hx⟩ := kindAt_cons hd
    obtain ⟨hnames, hbelow⟩ := distinct_dir_iff.mp hn
    rw [List.cons_append, alter_cons _ (by simp), distinct_dir_iff]
    refine ⟨nodup_names_alterEntry _ _ hnames, fun b y hb => ?_⟩
    by_cases hbc : b = c
    · subst hbc
      rw [lookup_alterEntry_self _ _ hnames, hc] at hb
      simp only [Option.map_some, Option.some.injEq] at hb
      exact hb ▸ ih (hbelow b x hc) hx
    · rw [lookup_alterEntry_ne _ _ hbc] at hb
      exact hbelow b y hb

/-- At and below the location, there is what was put there. -/
theorem get?_alter_below {n : Node} (hn : n.Distinct) (d : Location) (a : String)
    (hd : n.kindAt d = some .dir) (m : Option Node) (r : Location) :
    (n.alter (d ++ [a]) fun _ => m).get? (d ++ a :: r) = m.bind (get? r) := by
  induction d generalizing n with
  | nil =>
    obtain ⟨es, hes⟩ := kindAt_eq_dir_iff.mp hd
    simp only [Node.get?, Option.some.injEq] at hes
    subst hes
    rw [List.nil_append, List.nil_append, alter_singleton]
    simp only [Node.get?, entries]
    rw [lookup_alterEntry_self _ _ (hn [] es rfl)]
  | cons c d ih =>
    obtain ⟨es, x, rfl, hc, hx⟩ := kindAt_cons hd
    rw [List.cons_append, List.cons_append, alter_cons _ (by simp)]
    simp only [Node.get?, entries]
    rw [lookup_alterEntry_self _ _ (hn [] es rfl), hc]
    exact ih (Distinct.get? hn (l := [c]) (by simp [Node.get?, entries, hc])) hx

/-- What is neither on the way to the location nor below it stays. -/
theorem get?_alter_apart {n : Node} (hn : n.Distinct) (d : Location) (a : String)
    (hd : n.kindAt d = some .dir) (m : Option Node) {l : Location}
    (hout : ¬ (d ++ [a]) <+: l) (hin : ¬ l <+: d) :
    (n.alter (d ++ [a]) fun _ => m).get? l = n.get? l := by
  induction d generalizing n l with
  | nil =>
    obtain ⟨es, hes⟩ := kindAt_eq_dir_iff.mp hd
    simp only [Node.get?, Option.some.injEq] at hes
    subst hes
    cases l with
    | nil => exact absurd (List.nil_prefix) hin
    | cons b l =>
      have hba : b ≠ a := by
        rintro rfl
        exact hout ⟨l, rfl⟩
      rw [List.nil_append, alter_singleton]
      simp only [Node.get?, entries]
      rw [lookup_alterEntry_ne _ _ hba]
  | cons c d ih =>
    obtain ⟨es, x, rfl, hc, hx⟩ := kindAt_cons hd
    cases l with
    | nil => exact absurd (List.nil_prefix) hin
    | cons b l =>
      rw [List.cons_append, alter_cons _ (by simp)]
      simp only [Node.get?, entries]
      by_cases hbc : b = c
      · subst hbc
        rw [lookup_alterEntry_self _ _ (hn [] es rfl), hc]
        apply ih (Distinct.get? hn (l := [b]) (by simp [Node.get?, entries, hc])) hx
        · simpa [List.cons_prefix_cons] using hout
        · simpa [List.cons_prefix_cons] using hin
      · rw [lookup_alterEntry_ne _ _ hbc]

/-- A directory on the way to the location stays a directory. -/
theorem kindAt_alter_way {n : Node} (hn : n.Distinct) (d : Location) (a : String)
    (hd : n.kindAt d = some .dir) (m : Option Node) {l : Location} (h : l <+: d) :
    (n.alter (d ++ [a]) fun _ => m).kindAt l = some .dir ∧ n.kindAt l = some .dir := by
  induction d generalizing n l with
  | nil =>
    obtain ⟨es, hes⟩ := kindAt_eq_dir_iff.mp hd
    simp only [Node.get?, Option.some.injEq] at hes
    subst hes
    rw [List.prefix_nil] at h
    subst h
    exact ⟨rfl, rfl⟩
  | cons c d ih =>
    obtain ⟨es, x, rfl, hc, hx⟩ := kindAt_cons hd
    rw [List.cons_append, alter_cons _ (by simp)]
    cases l with
    | nil => exact ⟨rfl, rfl⟩
    | cons b l =>
      obtain ⟨rfl, hl⟩ := List.cons_prefix_cons.mp h
      have hself := lookup_alterEntry_self (Option.map (Node.alter (d ++ [a]) fun _ => m)) b
        (hn [] es rfl)
      have := ih (Distinct.get? hn (l := [b]) (by simp [Node.get?, entries, hc])) hx hl
      simpa [kindAt, Node.get?, entries, hself, hc] using this

theorem kindAt_alter_beside {n : Node} (hn : n.Distinct) (d : Location) (a : String)
    (hd : n.kindAt d = some .dir) (m : Option Node) {l : Location} (h : ¬ (d ++ [a]) <+: l) :
    (n.alter (d ++ [a]) fun _ => m).kindAt l = n.kindAt l := by
  by_cases hl : l <+: d
  · obtain ⟨h₁, h₂⟩ := kindAt_alter_way hn d a hd m hl
    rw [h₁, h₂]
  · rw [kindAt, get?_alter_apart hn d a hd m h hl, kindAt]

end Node

end Overseer
