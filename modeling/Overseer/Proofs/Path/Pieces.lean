import Overseer.Path

/-! The pieces of a path, and what they say of its parent and of a path beside it.
`pieces_withFileName`: with another last name, a path keeps the pieces before it, less those at
their end that name nothing. -/

namespace Overseer.Path

theorem pieces_of_slash_free {s : List Char} (h : '/' ∉ s) : pieces s = [s] := by
  induction s with
  | nil => rfl
  | cons c r ih =>
    simp only [List.mem_cons, not_or] at h
    rw [pieces, if_neg (Ne.symm h.1), ih h.2]

theorem slash_free_of_mem_pieces {s p : List Char} (h : p ∈ pieces s) : '/' ∉ p := by
  induction s generalizing p with
  | nil =>
    rw [pieces, List.mem_singleton] at h
    simp [h]
  | cons c r ih =>
    rw [pieces] at h
    split at h
    · rcases List.mem_cons.mp h with rfl | h
      · simp
      · exact ih h
    · next hc =>
      cases hr : pieces r with
      | nil => exact absurd hr (pieces_ne_nil r)
      | cons q qs =>
        rw [hr] at h
        rcases List.mem_cons.mp h with rfl | h
        · simp only [List.mem_cons, not_or]
          exact ⟨Ne.symm hc, ih (by simp [hr])⟩
        · exact ih (by simp [hr, h])

theorem pieces_append_slash (x y : List Char) : pieces (x ++ '/' :: y) = pieces x ++ pieces y := by
  induction x with
  | nil => rfl
  | cons c r ih =>
    rw [List.cons_append, pieces, pieces, ih]
    split
    · rfl
    · cases hr : pieces r with
      | nil => exact absurd hr (pieces_ne_nil r)
      | cons q qs => rfl

theorem glue_append {qs : List (List Char)} (hne : qs ≠ []) (a : List Char) :
    glue (qs ++ [a]) = glue qs ++ '/' :: a := by
  induction qs with
  | nil => exact absurd rfl hne
  | cons q qs ih =>
    cases qs with
    | nil => rfl
    | cons r rs =>
      show q ++ '/' :: glue (r :: rs ++ [a]) = q ++ '/' :: glue (r :: rs) ++ '/' :: a
      rw [ih (by simp)]
      simp

theorem glue_isPrefix {qs : List (List Char)} (hne : qs ≠ []) (rest : List (List Char)) :
    glue qs <+: glue (qs ++ rest) := by
  induction rest generalizing qs with
  | nil => exact (List.append_nil qs).symm ▸ List.prefix_refl (glue qs)
  | cons r rest ih =>
    have hstep : glue qs <+: glue (qs ++ [r]) := by
      rw [glue_append hne]
      exact List.prefix_append _ _
    have := @ih (qs ++ [r]) (by simp)
    rw [List.append_assoc, List.singleton_append] at this
    exact hstep.trans this

theorem pieces_glue {qs : List (List Char)} (hne : qs ≠ []) (h : ∀ q ∈ qs, '/' ∉ q) :
    pieces (glue qs) = qs := by
  induction qs with
  | nil => exact absurd rfl hne
  | cons q qs ih =>
    have hq := pieces_of_slash_free (h q (by simp))
    cases qs with
    | nil => exact hq
    | cons r rs =>
      show pieces (q ++ '/' :: glue (r :: rs)) = q :: r :: rs
      rw [pieces_append_slash, hq, ih (by simp) fun p hp => h p (by simp [hp])]
      rfl

theorem mem_glue {c : Char} {qs : List (List Char)} (h : c ∈ glue qs) :
    c = '/' ∨ ∃ q ∈ qs, c ∈ q := by
  induction qs with
  | nil => simp [glue] at h
  | cons q qs ih =>
    cases qs with
    | nil => exact Or.inr ⟨q, by simp, h⟩
    | cons r rs =>
      change c ∈ q ++ '/' :: glue (r :: rs) at h
      simp only [List.mem_append, List.mem_cons] at h
      rcases h with h | h | h
      · exact Or.inr ⟨q, by simp, h⟩
      · exact Or.inl h
      · rcases ih h with h | ⟨p, hp, h⟩
        · exact Or.inl h
        · exact Or.inr ⟨p, by simp [hp], h⟩

theorem mem_of_mem_pieces {c : Char} {s p : List Char} (hp : p ∈ pieces s) (hc : c ∈ p) :
    c ∈ s := by
  induction s generalizing p with
  | nil =>
    rw [pieces, List.mem_singleton] at hp
    rw [hp] at hc
    exact hc
  | cons d r ih =>
    rw [pieces] at hp
    split at hp
    · rcases List.mem_cons.mp hp with rfl | hp
      · simp at hc
      · exact List.mem_cons_of_mem _ (ih hp hc)
    · cases hr : pieces r with
      | nil => exact absurd hr (pieces_ne_nil r)
      | cons q qs =>
        rw [hr] at hp
        rcases List.mem_cons.mp hp with rfl | hp
        · rcases List.mem_cons.mp hc with rfl | hc
          · exact List.mem_cons_self
          · exact List.mem_cons_of_mem _ (ih (by simp [hr]) hc)
        · exact List.mem_cons_of_mem _ (ih (by simp [hr, hp]) hc)

/-- A path starts at the root if a slash ends its first piece, which then is empty. -/
theorem getLast?_pieces_ne {s : List Char} (hne : s ≠ []) (hslash : s.getLast? ≠ some '/') :
    (pieces s).getLast? ≠ some [] := by
  intro hlast
  obtain ⟨ps, hps⟩ := List.getLast?_eq_some_iff.mp hlast
  have hglue := glue_pieces s
  rw [hps] at hglue
  by_cases hnil : ps = []
  · rw [hnil] at hglue
    exact hne hglue.symm
  · rw [glue_append hnil] at hglue
    exact hslash (List.getLast?_eq_some_iff.mpr ⟨_, hglue.symm⟩)

/-- A path of slashes alone has no names. -/
theorem blank_of_slashes {s : List Char}
    (h : String.ofList (s.reverse.dropWhile (· = '/')).reverse = "") : ∀ p ∈ pieces s, p = [] := by
  have hnil := congrArg String.toList h
  rw [String.toList_ofList] at hnil
  have hdrop : s.reverse.dropWhile (· = '/') = [] := by simpa using hnil
  have htake := List.takeWhile_append_dropWhile (p := (· = '/')) (l := s.reverse)
  rw [hdrop, List.append_nil] at htake
  have hslashes := List.all_takeWhile (p := (· = '/')) (l := s.reverse)
  rw [htake] at hslashes
  have hchars : ∀ c ∈ s, c = '/' := by
    intro c hc
    simpa using List.all_eq_true.mp hslashes c (List.mem_reverse.mpr hc)
  intro p hp
  apply List.eq_nil_iff_forall_not_mem.mpr
  intro c hc
  have := hchars c (mem_of_mem_pieces hp hc)
  exact slash_free_of_mem_pieces hp (this ▸ hc)

theorem isAbsolute_iff (s : List Char) :
    isAbsolute s = true ↔ ∃ q r, pieces s = [] :: q :: r := by
  cases s with
  | nil => simp [isAbsolute, pieces]
  | cons c r =>
    rw [pieces]
    by_cases hc : c = '/'
    · subst hc
      simp only [isAbsolute, List.head?_cons, beq_self_eq_true, ↓reduceIte, List.cons.injEq,
        true_and, true_iff]
      cases hr : pieces r with
      | nil => exact absurd hr (pieces_ne_nil r)
      | cons q qs => exact ⟨q, qs, rfl⟩
    · rw [if_neg hc]
      cases hr : pieces r with
      | nil => simp [isAbsolute, hc]
      | cons q qs => simp [isAbsolute, hc]

theorem isAbsolute_of_slash_free {s : List Char} (h : '/' ∉ s) : isAbsolute s = false := by
  rw [← Bool.not_eq_true, isAbsolute_iff, pieces_of_slash_free h]
  simp

/-! ## Trimming -/

/-- The pieces of a directory, less those at the end that name nothing. -/
def trimmed (ps : List (List Char)) : List (List Char) := (trimLast ps.reverse).reverse

theorem trimLast_ne_nil {qs : List (List Char)} (h : qs ≠ []) : trimLast qs ≠ [] := by
  fun_induction trimLast qs with
  | case1 => exact absurd rfl h
  | case2 p => simp
  | case3 p q r hp ih => exact ih (by simp)
  | case4 p q r hp => simp

theorem trimmed_ne_nil {ps : List (List Char)} (h : ps ≠ []) : trimmed ps ≠ [] := by
  have hr : ps.reverse ≠ [] := by simpa using h
  unfold trimmed
  simpa using trimLast_ne_nil hr

/-- Trimming takes blanks and dots off the end, and leaves the first piece. -/
theorem trimLast_suffix (qs : List (List Char)) :
    ∃ gone, qs = gone ++ trimLast qs ∧ ∀ p ∈ gone, p = [] ∨ p = ['.'] := by
  fun_induction trimLast qs with
  | case1 => exact ⟨[], rfl, by simp⟩
  | case2 p => exact ⟨[], rfl, by simp⟩
  | case3 p q r hp ih =>
    obtain ⟨gone, heq, hgone⟩ := ih
    refine ⟨p :: gone, by rw [List.cons_append, ← heq], fun x hx => ?_⟩
    rcases List.mem_cons.mp hx with rfl | hx
    · exact hp
    · exact hgone x hx
  | case4 p q r hp => exact ⟨[], rfl, by simp⟩

theorem trimmed_append (ps : List (List Char)) :
    ∃ gone, ps = trimmed ps ++ gone ∧ ∀ p ∈ gone, p = [] ∨ p = ['.'] := by
  obtain ⟨gone, heq, hgone⟩ := trimLast_suffix ps.reverse
  refine ⟨gone.reverse, ?_, fun p hp => hgone p (by simpa using hp)⟩
  have := congrArg List.reverse heq
  simpa [trimmed] using this

theorem mem_trimmed {p : List Char} {ps : List (List Char)} (h : p ∈ trimmed ps) : p ∈ ps := by
  obtain ⟨gone, heq, -⟩ := trimmed_append ps
  rw [heq]
  exact List.mem_append_left _ h

theorem head?_trimmed (ps : List (List Char)) : (trimmed ps).head? = ps.head? := by
  by_cases hps : ps = []
  · subst hps
    rfl
  · obtain ⟨gone, heq, -⟩ := trimmed_append ps
    cases ht : trimmed ps with
    | nil => exact absurd ht (trimmed_ne_nil hps)
    | cons p r =>
      rw [heq, ht]
      rfl

/-- What trimming leaves ends with a piece that names something, or is a single piece. -/
theorem trimLast_cases (qs : List (List Char)) :
    qs = [] ∨ (∃ p, trimLast qs = [p]) ∨ ∃ p r, trimLast qs = p :: r ∧ p ≠ [] := by
  fun_induction trimLast qs with
  | case1 => exact Or.inl rfl
  | case2 p => exact Or.inr (Or.inl ⟨p, rfl⟩)
  | case3 p q r hp ih =>
    rcases ih with h | h
    · simp at h
    · exact Or.inr h
  | case4 p q r hp => exact Or.inr (Or.inr ⟨p, q :: r, rfl, fun h => hp (Or.inl h)⟩)

/-! ## Names and parents -/

variable {s a : List Char} {ps : List (List Char)}

theorem significant_of_pieces (h : pieces s = ps ++ [a]) (ha : a ≠ []) (hdot : a ≠ ['.']) :
    significant s = a :: ps.reverse := by
  rw [significant, h, List.reverse_append]
  cases hr : ps.reverse with
  | nil => simp [trimLast]
  | cons q qs => simp [trimLast, ha, hdot]

theorem fileName?_of_pieces (h : pieces s = ps ++ [a]) (ha : a ≠ []) (hdot : a ≠ ['.'])
    (hup : a ≠ ['.', '.']) : fileName? s = some a := by
  rw [fileName?, significant_of_pieces h ha hdot]
  simp [ha, hdot, hup]

theorem parent?_of_pieces (h : pieces s = ps ++ [a]) (ha : a ≠ []) (hdot : a ≠ ['.']) :
    parent? s = some (if ps = [] then [] else if trimmed ps = [[]] then ['/']
      else glue (trimmed ps)) := by
  rw [parent?, significant_of_pieces h ha hdot]
  cases hr : ps.reverse with
  | nil =>
    have hps : ps = [] := by simpa using hr
    simp [ha, hps]
  | cons q qs =>
    have hps : ps ≠ [] := by
      rintro rfl
      simp at hr
    have ht : trimmed ps = (trimLast (q :: qs)).reverse := by rw [trimmed, hr]
    rw [if_neg hps]
    by_cases hroot : trimLast (q :: qs) = [[]]
    · simp [hroot, ht]
    · have hne : trimmed ps ≠ [[]] := by
        intro e
        rw [ht] at e
        exact hroot (by simpa using congrArg List.reverse e)
      rw [if_neg hne, ht]
      simp only

/-- The parent's text starts the path, and its pieces are those before the last component. -/
theorem pieces_of_parent? (h : pieces s = ps ++ [a]) (ha : a ≠ []) (hdot : a ≠ ['.'])
    {d : List Char} (hd : parent? s = some d) (hne : d ≠ []) :
    d <+: s ∧ (pieces d = trimmed ps ∨ pieces d = trimmed ps ++ [[]]) := by
  obtain ⟨gone, hgone, -⟩ := trimmed_append ps
  have hs : s = glue (trimmed ps ++ (gone ++ [a])) := by
    rw [← List.append_assoc, ← hgone, ← h, glue_pieces]
  rw [parent?_of_pieces h ha hdot, Option.some.injEq] at hd
  by_cases hps : ps = []
  · rw [if_pos hps] at hd
    exact absurd hd.symm hne
  · rw [if_neg hps] at hd
    by_cases hroot : trimmed ps = [[]]
    · rw [if_pos hroot] at hd
      subst hd
      refine ⟨?_, Or.inr (by rw [hroot]; rfl)⟩
      obtain ⟨q, qs, hq⟩ := List.exists_cons_of_ne_nil (l := gone ++ [a]) (by simp)
      rw [hroot, hq] at hs
      rw [hs]
      exact ⟨glue (q :: qs), rfl⟩
    · rw [if_neg hroot] at hd
      subst hd
      refine ⟨?_, Or.inl (pieces_glue (trimmed_ne_nil hps) fun q hq => ?_)⟩
      · rw [hs]
        exact glue_isPrefix (trimmed_ne_nil hps) _
      · exact slash_free_of_mem_pieces (s := s)
          (by rw [h]; exact List.mem_append_left _ (mem_trimmed hq))

/-- Beside the last component, a path keeps the pieces before it, up to those that name
nothing. -/
theorem pieces_withFileName (h : pieces s = ps ++ [a]) (ha : a ≠ []) (hdot : a ≠ ['.'])
    (hup : a ≠ ['.', '.']) {name : List Char} (hname : '/' ∉ name) :
    pieces (withFileName s name) = trimmed ps ++ [name] := by
  have hfree : ∀ q ∈ trimmed ps, '/' ∉ q := fun q hq =>
    slash_free_of_mem_pieces (s := s) (by rw [h]; exact List.mem_append_left _ (mem_trimmed hq))
  rw [withFileName, fileName?_of_pieces h ha hdot hup, parent?_of_pieces h ha hdot]
  simp only [Option.getD_some, join, isAbsolute_of_slash_free hname, Bool.false_eq_true, ↓reduceIte]
  by_cases hps : ps = []
  · subst hps
    simpa [trimmed, trimLast] using pieces_of_slash_free hname
  · rw [if_neg hps]
    by_cases hroot : trimmed ps = [[]]
    · simp [hroot, pieces, pieces_of_slash_free hname]
    · rw [if_neg hroot]
      -- The text of the directory is not empty and ends with no slash.
      have hlast : ¬ (glue (trimmed ps) = [] ∨ (glue (trimmed ps)).getLast? = some '/') := by
        have hp := pieces_glue (trimmed_ne_nil hps) hfree
        rintro (hempty | hslash)
        · rw [hempty, pieces] at hp
          exact hroot hp.symm
        · obtain ⟨x, hx⟩ := List.getLast?_eq_some_iff.mp hslash
          rw [hx, pieces_append_slash, pieces] at hp
          have hblank : trimLast ps.reverse = [] :: (pieces x).reverse := by
            simpa [trimmed] using congrArg List.reverse hp.symm
          rcases trimLast_cases ps.reverse with h | ⟨p, h⟩ | ⟨p, r, h, hp⟩
          · exact hps (by simpa using h)
          · rw [hblank] at h
            exact pieces_ne_nil x (by simpa using (List.cons.inj h).2)
          · rw [hblank] at h
            exact hp (List.cons.inj h).1.symm
      rw [if_neg hlast, pieces_append_slash, pieces_of_slash_free hname,
        pieces_glue (trimmed_ne_nil hps) hfree]

/-! ## Joining -/

/-- The names in a directory have paths that differ in their last piece only; the others are those
of the directory, but for a slash at its end. -/
theorem pieces_join (dir : List Char) :
    ∃ ps, (pieces dir = ps ∨ pieces dir = ps ++ [[]]) ∧ ∀ x, '/' ∉ x →
      pieces (join dir x) = ps ++ [x] ∧ isAbsolute (join dir x) = isAbsolute dir := by
  rcases List.eq_nil_or_concat dir with rfl | ⟨init, c, rfl⟩
  · refine ⟨[], Or.inr rfl, fun x hx => ?_⟩
    have hjoin : join [] x = x := by simp [join, isAbsolute_of_slash_free hx]
    rw [hjoin]
    exact ⟨pieces_of_slash_free hx, isAbsolute_of_slash_free hx⟩
  · by_cases hc : c = '/'
    · subst hc
      have hinit : pieces (init.concat '/') = pieces init ++ [[]] := by
        rw [List.concat_eq_append]
        exact pieces_append_slash init []
      refine ⟨pieces init, Or.inr hinit, fun x hx => ?_⟩
      have hjoin : join (init.concat '/') x = init ++ '/' :: x := by
        simp [join, isAbsolute_of_slash_free hx]
      rw [hjoin, pieces_append_slash, pieces_of_slash_free hx]
      refine ⟨rfl, ?_⟩
      cases init with
      | nil => rfl
      | cons b r => rfl
    · refine ⟨pieces (init.concat c), Or.inl rfl, fun x hx => ?_⟩
      have hjoin : join (init.concat c) x = init.concat c ++ '/' :: x := by
        simp [join, isAbsolute_of_slash_free hx, hc]
      rw [hjoin, pieces_append_slash, pieces_of_slash_free hx]
      refine ⟨rfl, ?_⟩
      cases init with
      | nil => rfl
      | cons b r => rfl

/-- Below a name there is no slash to drop. -/
theorem pieces_join_below (dir : List Char) {a b : List Char} (hne : a ≠ []) (ha : '/' ∉ a)
    (hb : '/' ∉ b) :
    pieces (join (join dir a) b) = pieces (join dir a) ++ [b] ∧
      isAbsolute (join (join dir a) b) = isAbsolute (join dir a) := by
  obtain ⟨ps, -, hdir⟩ := pieces_join dir
  obtain ⟨qs, htrailing, hbelow⟩ := pieces_join (join dir a)
  obtain ⟨hpieces, hstart⟩ := hbelow b hb
  rcases htrailing with hqs | hqs
  · exact ⟨hqs ▸ hpieces, hstart⟩
  · rw [(hdir a ha).1] at hqs
    exact absurd (List.append_inj_right' hqs rfl) (by simpa using hne)

end Overseer.Path
