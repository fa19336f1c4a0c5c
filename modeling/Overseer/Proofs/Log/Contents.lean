import Overseer.Proofs.Log.Writing

/-! What the files of a log hold. Each case of a write is a change of `Shelf.view`, what can be
read in the slots, and so of `Shelf.stored`, the bytes in them; `oldestFirst` lists these in the
order in which they were written. -/

namespace Overseer.Log

/-- The bytes of a file; other nodes have none. -/
def content (t : FileTree) : Node → List UInt8
  | .file id => (t.bytes id).data.toList
  | _ => []

/-- What can be read at a node: the bytes of a file, nothing elsewhere. -/
def sight (t : FileTree) : Node → Option (List UInt8)
  | .file id => some (t.bytes id).data.toList
  | _ => none

/-- The bytes of the file that a path leads to. -/
def fileAt (t : FileTree) (path : String) : Option (List UInt8) :=
  (t.readFile path).toOption.map fun b => b.data.toList

/-- A path leads to just what it led to, and the files there hold what they held. -/
structure SameAt (t t' : FileTree) (path : String) : Prop where
  target : t'.resolve false path = t.resolve false path
  bytes : ∀ l m, t.resolve false path = .ok (.found l m) → ∀ r id, m.kindAt r = some (.file id) →
    t'.bytes id = t.bytes id

namespace Shelf

/-- What the nodes in the slots hold. -/
def stored (s : Shelf) (base : String) (t : FileTree) (i : Nat) : Option (List UInt8) :=
  (s.held base t i).map (content t)

/-- What can be read in the slots that are taken. -/
def view (s : Shelf) (base : String) (t : FileTree) (i : Nat) : Option (Option (List UInt8)) :=
  (s.held base t i).map (sight t)

variable {s : Shelf} {t t' : FileTree} {base : String} {n : Nat}

/-- The slots up to `n` are files or free. -/
def OnlyFiles (s : Shelf) (base : String) (n : Nat) (t : FileTree) : Prop :=
  ∀ i ≤ n, ∀ x, s.held base t i = some x → ∃ id, x = .file id

theorem OnlyFiles.of_held_eq (h : s.OnlyFiles base n t) (hheld : s.held base t' = s.held base t) :
    s.OnlyFiles base n t' := by
  intro i hi x hx
  rw [hheld] at hx
  exact h i hi x hx

theorem OnlyFiles.create (h : s.OnlyFiles base n t) (hholds : s.Holds t base n) {i : Nat}
    (hfit : s.Fits base i) : s.OnlyFiles base n (t.create (s.slot i)).1 := by
  intro j hj x hx
  rw [hholds.held_create hfit] at hx
  by_cases hji : j = i
  · subst hji
    rw [set_self] at hx
    exact ⟨_, (Option.some.inj hx).symm⟩
  · rw [set_ne _ _ _ hji] at hx
    exact h j hj x hx

theorem stored_of_file {i id : Nat} (hx : s.held base t i = some (.file id)) :
    s.stored base t i = some (t.bytes id).data.toList := by
  rw [stored, hx]
  rfl

theorem view_of_file {i id : Nat} (hx : s.held base t i = some (.file id)) :
    s.view base t i = some (some (t.bytes id).data.toList) := by
  rw [view, hx]
  rfl

theorem stored_eq_view (s : Shelf) (base : String) (t : FileTree) :
    s.stored base t = fun i => (s.view base t i).map (·.getD []) := by
  funext i
  unfold stored view
  cases s.held base t i with
  | none => rfl
  | some x =>
    cases x with
    | file id => rfl
    | link target => rfl
    | dir es => rfl

theorem Holds.fileAt_view (h : s.Holds t base n) {i : Nat} (hi : i ≤ n) :
    fileAt t (slotPath base i) = (s.view base t i).join := by
  unfold fileAt view FileTree.readFile
  cases hx : s.held base t i with
  | some x =>
    rw [h.resolve_held hi true hx]
    cases x with
    | file id => rfl
    | link target => rfl
    | dir es => rfl
  | none =>
    by_cases hfit : s.Fits base i
    · rw [h.resolve_free hi true hfit hx]
      rfl
    · rw [h.resolve_unfit hi true hfit]
      rfl

theorem Holds.fileAt_slot (h : s.Holds t base n) (honly : s.OnlyFiles base n t) {i : Nat}
    (hi : i ≤ n) : fileAt t (slotPath base i) = s.stored base t i := by
  rw [h.fileAt_view hi, view, stored]
  cases hx : s.held base t i with
  | none => rfl
  | some x =>
    obtain ⟨id, rfl⟩ := honly i hi x hx
    rfl

theorem Holds.id_lt (h : s.Holds t base n) {i id : Nat}
    (hx : s.held base t i = some (.file id)) : id < t.contents.size :=
  h.intact.stored _ id (Node.kindAt_eq_file_iff.mpr (get?_of_held hx))

/-- No file is in two slots. -/
theorem Holds.slot_eq (h : s.Holds t base n) {i j id : Nat}
    (hi : s.held base t i = some (.file id)) (hj : s.held base t j = some (.file id)) : i = j := by
  by_cases hij : i = j
  · exact hij
  · have := h.intact.alone _ _ id (Node.kindAt_eq_file_iff.mpr (get?_of_held hi))
      (Node.kindAt_eq_file_iff.mpr (get?_of_held hj))
    exact absurd this (s.slot_ne hij)

theorem map_set {α β : Type} (f : α → β) (σ : Nat → Option α) (i : Nat) (m : Option α) (j : Nat) :
    (set σ i m j).map f = set (fun k => (σ k).map f) i (m.map f) j := by
  unfold set
  split
  · rfl
  · rfl

theorem map_lifted {α β : Type} (f : α → β) (σ : Nat → Option α) (n i : Nat) :
    (lifted σ n i).map f = lifted (fun k => (σ k).map f) n i := by
  cases i with
  | zero => rfl
  | succ i =>
    simp only [lifted]
    by_cases h₁ : i + 1 < n
    · rw [if_pos h₁, if_pos h₁]
    · rw [if_neg h₁, if_neg h₁]
      by_cases h₂ : i + 1 = n
      · rw [if_pos h₂, if_pos h₂]
        exact Option.map_or
      · rw [if_neg h₂, if_neg h₂]

/-- A change of the bytes of one file shows in its slot only. -/
theorem Holds.view_change (h : s.Holds t base n) {i id : Nat}
    (hx : s.held base t i = some (.file id)) (hheld : s.held base t' = s.held base t)
    (hbytes : ∀ k, k ≠ id → t'.bytes k = t.bytes k) :
    s.view base t' = set (s.view base t) i (some (some (t'.bytes id).data.toList)) := by
  funext j
  unfold view
  rw [hheld]
  by_cases hji : j = i
  · subst hji
    rw [set_self, hx]
    rfl
  · rw [set_ne _ _ _ hji]
    cases hy : s.held base t j with
    | none => rfl
    | some y =>
      cases y with
      | file k =>
        have hk : k ≠ id := by
          rintro rfl
          exact hji (h.slot_eq hy hx)
        simp only [Option.map_some, sight, hbytes k hk]
      | link target => rfl
      | dir es => rfl

/-- Where the old files are left as they are, their slots show what they showed. -/
theorem Holds.map_sight (h : s.Holds t base n)
    (hbytes : ∀ k < t.contents.size, t'.bytes k = t.bytes k) (i : Nat) :
    (s.held base t i).map (sight t') = s.view base t i := by
  unfold view
  cases hy : s.held base t i with
  | none => rfl
  | some y =>
    cases y with
    | file k => simp only [Option.map_some, sight, hbytes k (h.id_lt hy)]
    | link target => rfl
    | dir es => rfl

theorem Holds.view_create (h : s.Holds t base n) {i : Nat} (hfit : s.Fits base i) :
    s.view base (t.create (s.slot i)).1 = set (s.view base t) i (some (some [])) := by
  have hempty : sight (t.create (s.slot i)).1 (.file t.contents.size) = some [] :=
    congrArg (fun b : ByteArray => some b.data.toList) (FileTree.bytes_create_self t (s.slot i))
  have hold : (fun k => (s.held base t k).map (sight (t.create (s.slot i)).1)) =
      s.view base t := by
    funext k
    exact h.map_sight (fun id hid => FileTree.bytes_create_lt t (s.slot i) hid) k
  funext j
  rw [view, h.held_create hfit, map_set, Option.map_some, hempty, hold]

theorem Holds.stored_create (h : s.Holds t base n) {i : Nat} (hfit : s.Fits base i) :
    s.stored base (t.create (s.slot i)).1 = set (s.stored base t) i (some []) := by
  rw [stored_eq_view, stored_eq_view, h.view_create hfit]
  funext j
  rw [map_set]
  rfl

/-! ## What a write makes of the slots -/

variable {log : RotatingLog} {record : ByteArray}

/-- With a record at the end of the active file, the other slots show what they showed. -/
theorem Live.view_append (h : s.Live t log) {id : Nat}
    (hx : s.held log.path t 0 = some (.file id))
    (hheld : s.held log.path t' = s.held log.path t)
    (hcontents : t'.contents = (t.append id record).contents) :
    s.view log.path t' = set (s.view log.path t) 0
      (some (some ((t.bytes id).data.toList ++ record.data.toList))) := by
  have hbytes : ∀ k, t'.bytes k = (t.append id record).bytes k := fun k => by
    rw [FileTree.bytes, FileTree.bytes, hcontents]
  rw [h.holds.view_change hx hheld fun k hk => by rw [hbytes, FileTree.bytes_append_ne t _ hk],
    hbytes, FileTree.bytes_append_self t record (h.holds.id_lt hx), ByteArray.data_append,
    Array.toList_append]

theorem Live.view_cut (h : s.Live t log) {id : Nat}
    (hx : s.held log.path t 0 = some (.file id))
    (hheld : s.held log.path t' = s.held log.path t)
    (hcontents : t'.contents = ((t.truncate id).append id record).contents) :
    s.view log.path t' = set (s.view log.path t) 0 (some (some record.data.toList)) := by
  have hbytes : ∀ k, t'.bytes k = ((t.truncate id).append id record).bytes k := fun k => by
    rw [FileTree.bytes, FileTree.bytes, hcontents]
  have hlt : id < (t.truncate id).contents.size := (h.holds.truncate id).id_lt hx
  rw [h.holds.view_change hx hheld fun k hk => by
      rw [hbytes, FileTree.bytes_append_ne _ _ hk, FileTree.bytes_truncate_ne t hk],
    hbytes, FileTree.bytes_append_self _ record hlt, FileTree.bytes_truncate_self,
    ByteArray.empty_append]

theorem Holds.view_shifted (h : s.Holds t base n)
    (hheld : s.held base t' = set (lifted (s.held base t) n) 0 (some (.file t.contents.size)))
    (hcontents : t'.contents = t.contents.push record) :
    s.view base t' = set (lifted (s.view base t) n) 0 (some (some record.data.toList)) := by
  have hold : ∀ k < t.contents.size, t'.bytes k = t.bytes k := by
    intro k hk
    simp [FileTree.bytes, hcontents, Array.getElem?_push, Nat.ne_of_lt hk]
  have hnew : t'.bytes t.contents.size = record := by
    simp [FileTree.bytes, hcontents]
  funext i
  rw [view, hheld, map_set]
  have hsight : (some (Node.file t.contents.size)).map (sight t') =
      some (some record.data.toList) := by rw [Option.map_some, sight, hnew]
  have hlifted : (fun k => (lifted (s.held base t) n k).map (sight t')) =
      lifted (s.view base t) n := by
    funext k
    rw [map_lifted]
    congr 1
    funext j
    exact h.map_sight hold j
  rw [hsight, hlifted]

end Shelf

/-! ## The files in the order of writing -/

/-- What is in the slots from `n` down to 0; free ones are passed over. -/
def oldestFirst {α : Type} (f : Nat → Option α) : Nat → List α
  | 0 => (f 0).toList
  | n + 1 => (f (n + 1)).toList ++ oldestFirst f n

section OldestFirst

variable {α : Type} {f g : Nat → Option α}

theorem oldestFirst_congr {n : Nat} (h : ∀ i ≤ n, f i = g i) :
    oldestFirst f n = oldestFirst g n := by
  induction n with
  | zero => rw [oldestFirst, oldestFirst, h 0 (Nat.le_refl 0)]
  | succ n ih =>
    rw [oldestFirst, oldestFirst, h (n + 1) (Nat.le_refl _), ih fun i hi => h i (by omega)]

theorem oldestFirst_eq_nil_iff {n : Nat} : oldestFirst f n = [] ↔ ∀ i ≤ n, f i = none := by
  induction n with
  | zero => simp [oldestFirst]
  | succ n ih =>
    rw [oldestFirst, List.append_eq_nil_iff, ih, Option.toList_eq_nil_iff]
    constructor
    · rintro ⟨hlast, hrest⟩ i hi
      rcases Nat.lt_or_eq_of_le hi with hi | rfl
      · exact hrest i (by omega)
      · exact hlast
    · intro h
      exact ⟨h (n + 1) (Nat.le_refl _), fun i hi => h i (by omega)⟩

/-- The active file comes last. -/
theorem oldestFirst_set_zero (f : Nat → Option α) (m : Option α) (n : Nat) :
    oldestFirst (Shelf.set f 0 m) n = oldestFirst (Shelf.set f 0 none) n ++ m.toList := by
  induction n with
  | zero => simp [oldestFirst]
  | succ n ih =>
    rw [oldestFirst, oldestFirst, ih, Shelf.set_ne _ _ _ (by omega), Shelf.set_ne _ _ _ (by omega),
      List.append_assoc]

theorem oldestFirst_active {x : α} (h : f 0 = some x) (n : Nat) :
    oldestFirst f n = oldestFirst (Shelf.set f 0 none) n ++ [x] := by
  have := oldestFirst_set_zero f (some x) n
  rwa [Shelf.set_of_eq h] at this

/-- After a shift the slots below the last give what they gave, less the highest of them. -/
theorem oldestFirst_lifted_lt {m n : Nat} (h : m < n) :
    (f m).toList ++ oldestFirst (Shelf.lifted f n) m = oldestFirst f m := by
  induction m with
  | zero => simp [oldestFirst, Shelf.lifted]
  | succ m ih =>
    have hm : Shelf.lifted f n (m + 1) = f m := by rw [Shelf.lifted, if_pos h]
    rw [oldestFirst, hm, ih (by omega), oldestFirst]

/-- A shift drops what the last slot held, if anything takes its place. -/
theorem oldestFirst_lifted (f : Nat → Option α) (n : Nat) :
    (if (f n).isSome then (f (n + 1)).toList else []) ++
      oldestFirst (Shelf.lifted f (n + 1)) (n + 1) = oldestFirst f (n + 1) := by
  have hlast : Shelf.lifted f (n + 1) (n + 1) = (f n).or (f (n + 1)) := by
    rw [Shelf.lifted, if_neg (by omega), if_pos rfl]
  have hbelow := oldestFirst_lifted_lt (f := f) (Nat.lt_succ_self n)
  rw [oldestFirst, oldestFirst, hlast]
  cases hn : f n with
  | none =>
    rw [hn] at hbelow
    simpa using hbelow
  | some x =>
    rw [hn] at hbelow
    simpa using hbelow

end OldestFirst

/-- What the files of a log with so many archives hold, oldest first. -/
def logFiles (t : FileTree) (path : String) (n : Nat) : List (List UInt8) :=
  oldestFirst (fun i => fileAt t (slotPath path i)) n

theorem Shelf.Holds.logFiles_eq {s : Shelf} {t : FileTree} {base : String} {n : Nat}
    (h : s.Holds t base n) (honly : s.OnlyFiles base n t) :
    logFiles t base n = oldestFirst (s.stored base t) n :=
  oldestFirst_congr fun _ hi => h.fileAt_slot honly hi

end Overseer.Log
