import Overseer.Proofs.FileTree.Absence
import Overseer.Proofs.Log.Instances
import Overseer.Proofs.Log.Rotation
import Overseer.Proofs.Path.Names

/-! Where the files of an instance are. `instance_files`: whatever the program is called, its log
and all archives of it are in the directory for logs, under names of their own, so that no rotation
moves one to the place of another. -/

namespace Overseer

/-! ## The name of an instance -/

/-- The stem of a file name is one piece of the path, or what one starts with. -/
theorem Path.slash_not_mem_fileStem? {s stem : List Char} (h : fileStem? s = some stem) :
    '/' ∉ stem := by
  obtain ⟨a, hname, rfl⟩ := Option.map_eq_some_iff.mp h
  have hslash : '/' ∉ a := slash_free_of_mem_pieces (mem_pieces_of_fileName? hname)
  rcases Log.splitExtension_cases a with he | ⟨stem, e, he, ha⟩
  · rw [he]
    exact hslash
  · rw [he]
    intro hm
    exact hslash (ha ▸ List.mem_append_left _ hm)

theorem instanceName_cases (program : String) :
    instanceName program = "instance" ∨ ∃ stem, Path.fileStem? program.toList = some stem ∧
      stem ≠ [] ∧ instanceName program = String.ofList stem := by
  unfold instanceName
  split
  · next c r h => exact Or.inr ⟨c :: r, h, by simp, rfl⟩
  · exact Or.inl rfl

theorem instanceName_ne_empty (program : String) : instanceName program ≠ "" := by
  rcases instanceName_cases program with h | ⟨stem, -, hne, h⟩
  · rw [h]
    decide
  · intro he
    rw [h] at he
    exact hne (by simpa using congrArg String.toList he)

theorem slash_not_mem_instanceName (program : String) :
    '/' ∉ (instanceName program).toList := by
  rcases instanceName_cases program with h | ⟨stem, hstem, -, h⟩
  · rw [h]
    decide
  · rw [h, String.toList_ofList]
    exact Path.slash_not_mem_fileStem? hstem

/-! ## The directory of a path -/

namespace FileTree

/-- Where a path that ends with a name leads anywhere, the pieces before the name lead to a
directory, and the name stands for what that directory has of it. -/
theorem entry_of_walk {root : Node} {links : Nat} {l : Location} {ps : List (List Char)}
    {a : List Char} {target : Target} (ha : Plain a)
    (h : walk root false links l (ps ++ [a]) = .ok target) (hl : root.kindAt l = some .dir) :
    ∃ d, Leads (root.kindAt · = some ·) links l ps d ∧
      target = entryAt root d (String.ofList a) := by
  have hleads : ∃ d, Leads (root.kindAt · = some ·) links l ps d := by
    cases target with
    | found x n =>
      obtain ⟨d, hd, -⟩ := leads_of_found h List.getLast?_concat ha
      rw [List.dropLast_concat] at hd
      exact ⟨d, hd⟩
    | absent _ _ =>
      obtain ⟨ps', a', d, heq, -, hd⟩ := leads_of_walk h hl (by simp [ha.1]) (by simp)
      obtain ⟨rfl, -⟩ := List.append_inj' heq rfl
      exact ⟨d, hd⟩
  obtain ⟨d, hd⟩ := hleads
  rw [walk_of_leads hd false ha (by simp), lastStep] at h
  split at h
  · cases h
  · exact ⟨d, hd, (Except.ok.inj h).symm⟩

/-- The directory that a path leads to; an empty one leads to where relative paths start. -/
def LeadsTo (t : FileTree) (path : String) (d : Location) : Prop :=
  Leads (t.root.kindAt · = some ·) maxLinks (if Path.isAbsolute path.toList then [] else t.working)
    (Path.pieces path.toList) d

/-- What is at a path to a name in a directory is what the directory has under that name. -/
theorem entry_of_child {t : FileTree} {dir name path : String} {target : Target}
    (hchild : Path.Child dir.toList name.toList path.toList)
    (hworking : t.root.kindAt t.working = some .dir) (h : t.resolve false path = .ok target) :
    ∃ d, t.LeadsTo dir d ∧ target = entryAt t.root d name := by
  obtain ⟨ps, gone, hpath, hdir, hgone⟩ := hchild.below
  obtain ⟨-, -, -, hwalk⟩ := walk_of_resolve h
  rw [hpath, hchild.start] at hwalk
  have hstart : t.root.kindAt (if Path.isAbsolute dir.toList then [] else t.working) =
      some .dir := by
    split
    · exact isDir_root hworking
    · exact hworking
  obtain ⟨d, hleads, htarget⟩ :=
    entry_of_walk ⟨hchild.ne_nil, hchild.ne_dot, hchild.ne_dots⟩ hwalk hstart
  rw [String.ofList_toList] at htarget
  refine ⟨d, ?_, htarget⟩
  rw [LeadsTo, hdir]
  exact hleads.append_blank hgone

theorem LeadsTo.unique {t : FileTree} {path : String} {d d' : Location} (h : t.LeadsTo path d)
    (h' : t.LeadsTo path d') : d' = d :=
  (Leads.both h h' fun _ _ _ hk hk' => Option.some.inj (hk'.symm.trans hk)).1

theorem location_entryAt (root : Node) (d : Location) (name : String) :
    (entryAt root d name).location = d ++ [name] := by
  unfold entryAt
  split <;> rfl

end FileTree

namespace Log

/-! ## The files of an instance -/

/-- The name of the log of an instance, or of its archive with this number. -/
def fileName (name : String) : Option Nat → String
  | none => name ++ ".log"
  | some i => name ++ "." ++ toString i ++ ".log"

/-- The path of the log of an instance, or of its archive with this number. -/
def filePath (logs : LogSettings) (name : String) : Option Nat → String
  | none => logs.instancePath name
  | some i => archivePath (logs.instancePath name) i

theorem slotPath_eq (logs : LogSettings) (name : String) (i : Nat) :
    slotPath (logs.instancePath name) i = filePath logs name (if i = 0 then none else some i) := by
  cases i with
  | zero => rfl
  | succ i => rfl

theorem toList_archive_name {name : String} (h : name ≠ "") (i : Nat) :
    (fileName name (some i)).toList = archiveName (name ++ ".log").toList i := by
  have hne : name.toList ≠ [] := fun hnil => h (String.toList_inj.mp hnil)
  rw [String.toList_append, archiveName_log hne, fileName]
  simp

theorem fileName_injective {name : String} (h : name ≠ "") {k k' : Option Nat}
    (he : fileName name k = fileName name k') : k = k' := by
  have hlog : ∀ i, fileName name none ≠ fileName name (some i) := by
    intro i hi
    have hlength := length_lt_archiveName (name ++ ".log").toList i
    rw [← toList_archive_name h, ← hi, fileName] at hlength
    omega
  cases k with
  | none =>
    cases k' with
    | none => rfl
    | some j => exact absurd he (hlog j)
  | some i =>
    cases k' with
    | none => exact absurd he.symm (hlog i)
    | some j =>
      have hlist := congrArg String.toList he
      rw [toList_archive_name h, toList_archive_name h] at hlist
      rw [archiveName_injective hlist]

theorem child_filePath (logs : LogSettings) {name : String} (h : name ≠ "")
    (hslash : '/' ∉ name.toList) (k : Option Nat) :
    Path.Child logs.dir.toList (fileName name k).toList
      (filePath logs name k).toList := by
  obtain ⟨ps, hdir, hjoin⟩ := Path.pieces_join logs.dir.toList
  have hbelow : ∃ gone, Path.pieces logs.dir.toList = ps ++ gone ∧
      ∀ p ∈ gone, p = [] ∨ p = ['.'] := by
    rcases hdir with hdir | hdir
    · exact ⟨[], by simp [hdir], by simp⟩
    · exact ⟨[[]], hdir, by simp⟩
  obtain ⟨gone, hgone, hblank⟩ := hbelow
  have hbase : (logs.instancePath name).toList =
      Path.join logs.dir.toList (name ++ ".log").toList := String.toList_ofList
  obtain ⟨hpieces, hstart⟩ := hjoin _ (slash_not_mem_log hslash)
  rw [← hbase] at hpieces hstart
  cases k with
  | none =>
    obtain ⟨hne, hdot, hdots⟩ := plain_log name
    exact ⟨⟨ps, gone, hpieces, hgone, hblank⟩, hstart, hne, hdot, hdots⟩
  | some i =>
    -- The path of an archive leaves out what names nothing at the end of the directory.
    obtain ⟨dropped, hdropped, hdots'⟩ := Path.trimmed_append ps
    obtain ⟨hne, hdot, hdots⟩ := archiveName_plain (name ++ ".log").toList i
    rw [toList_archive_name h]
    have hpieces' := pieces_archivePath hpieces (plain_log name) i
    have hstart' := isAbsolute_archivePath hpieces (plain_log name) i
    refine ⟨⟨Path.trimmed ps, dropped ++ gone, hpieces', ?_, ?_⟩, hstart'.trans hstart, hne, hdot,
      hdots⟩
    · rw [hgone, ← List.append_assoc, ← hdropped]
    · intro p hp
      exact (List.mem_append.mp hp).elim (hdots' p) (hblank p)

/-- Two files of an instance never stand at one place, nor one within the other. -/
theorem location_apart {logs : LogSettings} {name : String} (h : name ≠ "")
    (hslash : '/' ∉ name.toList) {t : FileTree} (hworking : t.root.kindAt t.working = some .dir)
    {k k' : Option Nat} (hne : k ≠ k') {x y : FileTree.Target}
    (hx : t.resolve false (filePath logs name k) = .ok x)
    (hy : t.resolve false (filePath logs name k') = .ok y) : ¬ x.location <+: y.location := by
  obtain ⟨d, hd, rfl⟩ := FileTree.entry_of_child (child_filePath logs h hslash k) hworking hx
  obtain ⟨d', hd', rfl⟩ := FileTree.entry_of_child (child_filePath logs h hslash k') hworking hy
  obtain rfl : d' = d := hd.unique hd'
  rw [FileTree.location_entryAt, FileTree.location_entryAt, List.prefix_append_right_inj]
  intro hprefix
  have he := hprefix.eq_of_length rfl
  exact hne (fileName_injective h (List.cons.inj he).1)

/-- The name of an instance is never empty and has no slash, whatever the program is called. Its log
and all archives of it have paths to names in the directory for logs, none of them a dot or two, and
no two have the same path. In any tree they lead to what that directory has under these names, so
that no slot is at or below the place of another, and a rotation moves nothing onto itself or onto
another slot. -/
theorem instance_files (program : String) (logs : LogSettings) :
    instanceName program ≠ "" ∧ '/' ∉ (instanceName program).toList ∧
    (∀ k, Path.Child logs.dir.toList (fileName (instanceName program) k).toList
        (filePath logs (instanceName program) k).toList ∧
      Path.fileName? (filePath logs (instanceName program) k).toList =
        some (fileName (instanceName program) k).toList) ∧
    (∀ k k', k ≠ k' → Path.names (filePath logs (instanceName program) k).toList ≠
      Path.names (filePath logs (instanceName program) k').toList) ∧
    ∀ t : FileTree, t.root.kindAt t.working = some .dir →
      (∀ k target, t.resolve false (filePath logs (instanceName program) k) = .ok target →
        ∃ d, t.LeadsTo logs.dir d ∧
          target = FileTree.entryAt t.root d (fileName (instanceName program) k)) ∧
      ∀ i j, i ≠ j → ∀ source target,
        t.resolve false (slotPath (logs.instancePath (instanceName program)) i) = .ok source →
        t.resolve false (slotPath (logs.instancePath (instanceName program)) j) = .ok target →
        ¬ source.location <+: target.location := by
  have hname := instanceName_ne_empty program
  have hslash := slash_not_mem_instanceName program
  have hchild := child_filePath logs hname hslash
  refine ⟨hname, hslash, fun k => ⟨hchild k, (hchild k).fileName?_eq⟩, ?_, ?_⟩
  · intro k k' hne
    refine (hchild k).names_ne (hchild k') fun he => hne ?_
    exact fileName_injective hname (String.toList_inj.mp he)
  · intro t hworking
    refine ⟨fun k target htarget => FileTree.entry_of_child (hchild k) hworking htarget, ?_⟩
    intro i j hij source target hsource htarget
    rw [slotPath_eq] at hsource htarget
    refine location_apart hname hslash hworking ?_ hsource htarget
    grind

/-- A program that is called by dots and an extension gives its instance a dot for its name. -/
theorem instance_files_dotted :
    instanceName "bin/..service" = "." ∧ slotPath (localLogs.instancePath ".") 1 = "..1.log" ∧
      FileTree.empty.resolve false "..log" = .ok (.absent ["work"] "..log") ∧
      FileTree.empty.resolve false "..1.log" = .ok (.absent ["work"] "..1.log") ∧
      ¬ (FileTree.Target.absent ["work"] "..log").location <+:
        (FileTree.Target.absent ["work"] "..1.log").location := by
  have hlog : FileTree.empty.resolve false "..log" = .ok (.absent ["work"] "..log") := by
    simp +decide [FileTree.resolve, FileTree.empty, Path.pieces, FileTree.walk, Node.get?,
      Node.entries]
  have harchive : FileTree.empty.resolve false "..1.log" = .ok (.absent ["work"] "..1.log") := by
    simp +decide [FileTree.resolve, FileTree.empty, Path.pieces, FileTree.walk, Node.get?,
      Node.entries]
  obtain ⟨-, -, -, -, hplaces⟩ := instance_files "bin/..service" localLogs
  exact ⟨rfl, rfl, hlog, harchive,
    (hplaces FileTree.empty rfl).2 0 1 (by decide) _ _ hlog harchive⟩

end Log

end Overseer
