import Overseer.Proofs.Source.Fixture
import Overseer.Proofs.Text.Ascii

/-! A directory for any processes, with the status line of each (`build_fixture`). It is at
`/proc`. -/

namespace Overseer.Fixture

/-- The directories of some processes; the files are numbered as the processes are listed. -/
def directories (rows : List Status) : List (String × Node) :=
  rows.zipIdx.map fun (s, i) => (toString s.pid.toNat, .dir [("stat", .file i)])

/-- A directory with the status line of each of some processes. -/
def build (rows : List Status) : FileTree where
  root := .dir [("proc", .dir (directories rows))]
  contents := (rows.map fun s => (String.ofList s.text).toUTF8).toArray
  working := []

theorem names_directories (rows : List Status) :
    (directories rows).map (·.1) = rows.map fun s => toString s.pid.toNat := by
  rw [directories, List.map_map]
  calc rows.zipIdx.map (fun x => toString x.1.pid.toNat)
      = (rows.zipIdx.map Prod.fst).map fun s => toString s.pid.toNat := by rw [List.map_map]; rfl
    _ = rows.map fun s => toString s.pid.toNat := by rw [List.zipIdx_map_fst]

theorem lookup_directories {rows : List Status} (hnodup : (rows.map (·.pid)).Nodup) {i : Nat}
    {s : Status} (hi : rows[i]? = some s) :
    (directories rows).lookup (toString s.pid.toNat) = some (.dir [("stat", .file i)]) := by
  have hnames : ((directories rows).map (·.1)).Nodup := by
    rw [names_directories, show (rows.map fun s => toString s.pid.toNat) =
      (rows.map (·.pid)).map fun pid => toString pid.toNat by rw [List.map_map]; rfl]
    exact hnodup.map id_injective
  refine Node.lookup_of_mem hnames (List.mem_map.mpr ⟨(s, i), ?_, rfl⟩)
  exact List.mem_zipIdx_iff_getElem?.mpr hi

/-! ## Where the paths lead -/

theorem length_id_le (pid : Pid) : (toString pid.toNat).toList.length ≤ 10 := by
  have hlt := pid.toNat_lt
  rw [toList_id]
  exact (Nat.length_toDigits_le_iff (by decide) (by decide)).mpr (by omega)

theorem isAscii_id (pid : Pid) : Text.IsAscii (toString pid.toNat).toList := by
  rw [toList_id]
  exact Text.isAscii_of_isDigit fun _ hc => Nat.isDigit_of_mem_toDigits (by decide) (by decide) hc

theorem size_id_le (pid : Pid) : (toString pid.toNat).utf8ByteSize ≤ FileTree.maxNameBytes := by
  rw [Text.utf8ByteSize_of_ascii (isAscii_id pid)]
  exact (length_id_le pid).trans (by decide)

section Paths

variable {p : Procfs} (hroot : p.root = "/proc") (pid : Pid)

include hroot in
theorem pieces_directory : Path.pieces (p.directory pid).toList =
    [[], "proc".toList, (toString pid.toNat).toList] := by
  have hslash : '/' ∉ (toString pid.toNat).toList := not_mem_id rfl pid
  have hjoin : Path.join "/proc".toList (toString pid.toNat).toList =
      "/proc".toList ++ '/' :: (toString pid.toNat).toList := by
    rw [Path.join, Path.isAbsolute_of_slash_free hslash, if_neg Bool.false_ne_true,
      if_neg (by decide)]
  rw [Procfs.directory, toList_below, hroot, hjoin, Path.pieces_append_slash,
    Path.pieces_of_slash_free hslash]
  rfl

include hroot in
theorem pieces_file : Path.pieces (p.file pid "stat").toList =
    [[], "proc".toList, (toString pid.toNat).toList, "stat".toList] := by
  have hbelow := Path.pieces_join_below "/proc".toList (plain_id pid).1 (not_mem_id rfl pid)
    (b := "stat".toList) (by decide)
  have hdirectory := pieces_directory hroot pid
  rw [Procfs.directory, toList_below, hroot] at hdirectory
  rw [Procfs.file, toList_below, Procfs.directory, toList_below, hroot, hbelow.1, hdirectory]
  rfl

/-- Short paths of ASCII characters can be followed. -/
theorem followable {path : String} {tail : List Char}
    (hpath : path.toList = "/proc/".toList ++ ((toString pid.toNat).toList ++ tail))
    (htail : Text.IsAscii tail) (hclean : Char.ofNat 0 ∉ tail) (hlength : tail.length ≤ 255) :
    Char.ofNat 0 ∉ path.toList ∧ path.utf8ByteSize ≤ FileTree.maxPathBytes := by
  have hascii : Text.IsAscii path.toList := by
    rw [hpath]
    exact .append (by decide) ((isAscii_id pid).append htail)
  constructor
  · rw [hpath, List.mem_append, List.mem_append]
    rintro (hc | hc | hc)
    · exact absurd hc (by decide)
    · exact not_mem_id rfl pid hc
    · exact hclean hc
  · have hid := length_id_le pid
    rw [Text.utf8ByteSize_of_ascii hascii, hpath, List.length_append, List.length_append]
    exact le_trans (show _ ≤ 6 + (10 + 255) by gcongr; decide) (by decide)

end Paths

section Build

variable (rows : List Status)

theorem leads_root : FileTree.Leads ((build rows).root.kindAt · = some ·) FileTree.maxLinks []
    [[]] [] := .stay (.inl rfl) (.here rfl)

theorem leads_proc : FileTree.Leads ((build rows).root.kindAt · = some ·) FileTree.maxLinks []
    [[], "proc".toList] ["proc"] :=
  .stay (.inl rfl) (.down ⟨by decide, by decide, by decide⟩ (by decide) rfl (.here rfl))

theorem resolve_proc : (build rows).resolve true "/proc" =
    .ok (.found ["proc"] (.dir (directories rows))) :=
  FileTree.resolve_of_leads [[]] "proc".toList [] (by decide) (by decide) (by decide)
    (leads_root rows) ⟨by decide, by decide, by decide⟩ (by decide) rfl (by simp)

variable {rows} (hnodup : (rows.map (·.pid)).Nodup) {i : Nat} {s : Status} (hi : rows[i]? = some s)
  {p : Procfs} (hroot : p.root = "/proc")

include hnodup hi

theorem get?_directory : (build rows).root.get? ["proc", toString s.pid.toNat] =
    some (.dir [("stat", .file i)]) := by
  show ((directories rows).lookup (toString s.pid.toNat)).bind _ = _
  rw [lookup_directories hnodup hi]
  rfl

theorem leads_directory : FileTree.Leads ((build rows).root.kindAt · = some ·) FileTree.maxLinks []
    [[], "proc".toList, (toString s.pid.toNat).toList] ["proc", toString s.pid.toNat] := by
  have hname : ["proc"] ++ [String.ofList (toString s.pid.toNat).toList] =
      ["proc", toString s.pid.toNat] := by
    rw [String.ofList_toList]
    rfl
  have hkind : (build rows).root.kindAt (["proc"] ++
      [String.ofList (toString s.pid.toNat).toList]) = some .dir := by
    rw [hname]
    exact Node.kindAt_eq_dir_iff.mpr ⟨_, get?_directory hnodup hi⟩
  have hsize : (String.ofList (toString s.pid.toNat).toList).utf8ByteSize ≤
      FileTree.maxNameBytes := by
    rw [String.ofList_toList]
    exact size_id_le s.pid
  rw [← hname]
  exact .stay (.inl rfl) (.down ⟨by decide, by decide, by decide⟩ (by decide) rfl
    (.down (plain_id s.pid) hsize hkind (.here hkind)))

include hroot in
theorem resolve_directory :
    (build rows).resolve true (p.directory s.pid) =
      .ok (.found ["proc", toString s.pid.toNat] (.dir [("stat", .file i)])) := by
  have hpieces := pieces_directory hroot s.pid
  have hpath : (p.directory s.pid).toList =
      "/proc/".toList ++ ((toString s.pid.toNat).toList ++ []) := by
    rw [← Path.glue_pieces (Procfs.directory _ _).toList, hpieces, List.append_nil]
    rfl
  obtain ⟨hclean, hsize⟩ := followable s.pid hpath (by decide) (by simp) (by simp)
  have hfound := FileTree.resolve_of_leads (t := build rows) [[], "proc".toList]
    (toString s.pid.toNat).toList ["proc"] hclean hsize hpieces (by
      rw [hpath]
      exact leads_proc rows) (plain_id s.pid)
    (by rw [String.ofList_toList]; exact size_id_le s.pid)
    (by rw [String.ofList_toList]; exact get?_directory hnodup hi) (by simp)
  rwa [String.ofList_toList] at hfound

include hroot in
theorem resolve_stat :
    (build rows).resolve true (p.file s.pid "stat") =
      .ok (.found ["proc", toString s.pid.toNat, "stat"] (.file i)) := by
  have hpieces := pieces_file hroot s.pid
  have hpath : (p.file s.pid "stat").toList =
      "/proc/".toList ++ ((toString s.pid.toNat).toList ++ "/stat".toList) := by
    rw [← Path.glue_pieces (Procfs.file _ _ _).toList, hpieces]
    rfl
  obtain ⟨hclean, hsize⟩ := followable s.pid hpath (by decide) (by decide) (by decide)
  refine FileTree.resolve_of_leads [[], "proc".toList, (toString s.pid.toNat).toList]
    "stat".toList ["proc", toString s.pid.toNat] hclean hsize hpieces ?_
    ⟨by decide, by decide, by decide⟩ (by decide) ?_ (by simp)
  · rw [hpath]
    exact leads_directory hnodup hi
  · rw [Node.get?_append, get?_directory hnodup hi]
    rfl

end Build

/-- Any processes have a directory with nothing but their status lines. -/
theorem build_fixture {rows : List Status} (hnodup : (rows.map (·.pid)).Nodup) {p : Procfs}
    (hroot : p.root = "/proc") : Fixture p (build rows) rows where
  ids := by
    refine ⟨(directories rows).map (·.1), [], ?_, ?_, by simp⟩
    · rw [FileTree.list, hroot, resolve_proc]
      rfl
    · rw [names_directories, List.append_nil]
  alone s hs := by
    obtain ⟨i, hi⟩ := List.mem_iff_getElem?.mp hs
    rw [FileTree.list, resolve_directory hnodup hi hroot]
    rfl
  line s hs := by
    obtain ⟨i, hi⟩ := List.mem_iff_getElem?.mp hs
    rw [FileTree.readFile, resolve_stat hnodup hi hroot]
    show Except.ok ((rows.map fun s => (String.ofList s.text).toUTF8).toArray.getD i .empty) = _
    rw [Array.getD_eq_getD_getElem?, List.getElem?_toArray, List.getElem?_map, hi]
    rfl

end Overseer.Fixture
