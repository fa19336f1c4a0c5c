import Overseer.Proofs.Log.Contents
import Overseer.Proofs.Log.Siting

/-! A log in two trees that show the same in its slots. `Twin.write`: they still do after the same
record has been written in both, whatever else is in them. -/

namespace Overseer.Log

namespace Shelf

section Slots

variable {α : Type} {σ τ : Nat → Option α} {n : Nat}

theorem set_lifted_zero (σ : Nat → Option α) (m : Option α) : set (lifted σ 0) 0 m = set σ 0 m := by
  funext i
  cases i with
  | zero => rfl
  | succ i => simp [set, lifted]

theorem lifted_congr (h : ∀ i ≤ n, τ i = σ i) {i : Nat} (hi : i ≤ n) :
    lifted τ n i = lifted σ n i := by
  cases i with
  | zero => rfl
  | succ i => simp only [lifted, h i (by omega), h n (Nat.le_refl n), h (i + 1) hi]

theorem set_congr (h : ∀ i ≤ n, τ i = σ i) (j : Nat) (m : Option α) {i : Nat} (hi : i ≤ n) :
    set τ j m i = set σ j m i := by
  rw [set, set, h i hi]

end Slots

variable {s : Shelf} {t t' : FileTree} {log log' : RotatingLog} {record : ByteArray}

/-- The log's size is that of what can be read in its active file. -/
theorem Live.active_view (h : s.Live t log) :
    ∃ bytes, s.view log.path t 0 = some (some bytes) ∧ log.size = bytes.length := by
  obtain ⟨id, hx, -, hsize⟩ := h.active
  exact ⟨_, view_of_file hx, hsize⟩

/-- What a write makes of the slots. -/
theorem Live.view_write (h : s.Live t log) (record : ByteArray) :
    s.view log.path (log.write t record).tree =
      if log.isFullFor record.size = true ∧ (log.write t record).result = .ok () then
        set (lifted (s.view log.path t) log.maxFiles) 0 (some (some record.data.toList))
      else
        set (s.view log.path t) 0
          ((s.view log.path t 0).map (·.map (· ++ record.data.toList))) := by
  cases (h.write_wrote record).1 with
  | added id hroom _ _ hx hheld hcontents =>
    rw [if_neg (by simp [hroom]), h.view_append hx hheld hcontents, view_of_file hx]
    rfl
  | cut id hfull hnone hok _ hx hheld hcontents =>
    rw [if_pos ⟨hfull, hok⟩, h.view_cut hx hheld hcontents, hnone, set_lifted_zero]
  | shifted hfull _ hok _ hheld hcontents =>
    rw [if_pos ⟨hfull, hok⟩, h.holds.view_shifted hheld hcontents]
  | stuck id e _ _ _ herror _ hx hheld hcontents =>
    rw [if_neg (by simp [herror]), h.view_append hx hheld hcontents, view_of_file hx]
    rfl

/-- What can be read in the slots tells which of them are taken by directories. -/
theorem Holds.isDir_view {base : String} {n : Nat} (h : s.Holds t base n) {i : Nat} (hi : i ≤ n) :
    (s.held base t i).map Node.isDir = (s.view base t i).map Option.isNone := by
  unfold view
  cases hx : s.held base t i with
  | none => rfl
  | some x =>
    cases x with
    | file id => rfl
    | dir es => rfl
    | link target =>
      have hlink := Node.kindAt_eq_link_iff.mpr (get?_of_held hx)
      exact absurd hlink (h.noLink i hi (fits_of_held hx) target)

/-- A log with the same settings in two trees, where its slots show the same. -/
structure Twin (s : Shelf) (log log' : RotatingLog) (t t' : FileTree) : Prop where
  settings : log'.settings = log.settings
  views : ∀ i ≤ log.maxFiles, s.view log.path t' i = s.view log.path t i

namespace Twin

theorem refl : Twin s log log t t := ⟨rfl, fun _ _ => rfl⟩

theorem path (h : Twin s log log' t t') : log'.path = log.path := congrArg (·.1) h.settings

theorem maxBytes (h : Twin s log log' t t') : log'.maxBytes = log.maxBytes :=
  congrArg (·.2.1) h.settings

theorem maxFiles (h : Twin s log log' t t') : log'.maxFiles = log.maxFiles :=
  congrArg (·.2.2) h.settings

theorem size (h : Twin s log log' t t') (hlive : s.Live t log) (hlive' : s.Live t' log') :
    log'.size = log.size := by
  obtain ⟨bytes, hview, hsize⟩ := hlive.active_view
  obtain ⟨bytes', hview', hsize'⟩ := hlive'.active_view
  rw [h.path, h.views 0 (Nat.zero_le _), hview] at hview'
  cases hview'
  rw [hsize, hsize']

theorem isFullFor (h : Twin s log log' t t') (hlive : s.Live t log) (hlive' : s.Live t' log')
    (length : Nat) : log'.isFullFor length = log.isFullFor length := by
  rw [RotatingLog.isFullFor, RotatingLog.isFullFor, h.size hlive hlive', h.maxBytes]

theorem result (h : Twin s log log' t t') (hlive : s.Live t log) (hlive' : s.Live t' log')
    (record : ByteArray) : (log'.write t' record).result = (log.write t record).result := by
  have hraise : (raise (s.Fits log.path) log.maxFiles (s.held log.path t')).2 =
      (raise (s.Fits log.path) log.maxFiles (s.held log.path t)).2 := by
    have hholds' := hlive'.holds
    rw [h.path, h.maxFiles] at hholds'
    apply raise_congr
    intro i hi
    rw [hholds'.isDir_view hi, hlive.holds.isDir_view hi, h.views i hi]
  rw [hlive.write_result, hlive'.write_result, h.isFullFor hlive hlive', h.path, h.maxFiles, hraise]

theorem write (h : Twin s log log' t t') (hlive : s.Live t log) (hlive' : s.Live t' log')
    (record : ByteArray) :
    Twin s (log.write t record).log (log'.write t' record).log (log.write t record).tree
      (log'.write t' record).tree := by
  refine ⟨by rw [RotatingLog.write_settings, RotatingLog.write_settings, h.settings],
    fun i hi => ?_⟩
  rw [RotatingLog.write_maxFiles] at hi
  have hview' := hlive'.view_write record
  rw [h.path, h.maxFiles, h.isFullFor hlive hlive', h.result hlive hlive',
    h.views 0 (Nat.zero_le _)] at hview'
  rw [RotatingLog.write_path, hview', hlive.view_write record]
  split
  · exact set_congr (fun j hj => lifted_congr h.views hj) 0 _ hi
  · exact set_congr h.views 0 _ hi

end Twin

end Shelf

end Overseer.Log
