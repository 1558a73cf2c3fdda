import OntologyStructs.Text.Blank

namespace OntologyStructs.Text

variable {sep : CodePoint} {t u : Text}

def IsLine (t : Text) : Prop := ('\n' : CodePoint) ∉ t

instance : Decidable t.IsLine := inferInstanceAs (Decidable (('\n' : CodePoint) ∉ t))

theorem isLine_nil : IsLine [] := List.not_mem_nil

theorem isLine_append : IsLine (t ++ u) ↔ t.IsLine ∧ u.IsLine := by
  rw [IsLine, List.mem_append, not_or]
  rfl

theorem flatten_addToFirst (c : CodePoint) (ts : List Text) :
    (addToFirst c ts).flatten = c :: ts.flatten := by
  cases ts <;> rfl

theorem splitOn_ne_nil (sep : CodePoint) (t : Text) : t.splitOn sep ≠ [] := by
  cases t with
  | nil => exact List.cons_ne_nil _ _
  | cons c t =>
    rw [splitOn]
    split
    · exact List.cons_ne_nil _ _
    · cases splitOn sep t <;> exact List.cons_ne_nil _ _

theorem splitOn_append_cons (sep : CodePoint) (t u : Text) :
    (t ++ sep :: u).splitOn sep = t.splitOn sep ++ u.splitOn sep := by
  induction t with
  | nil => exact if_pos rfl
  | cons c t ih =>
    obtain ⟨p, ps, hsplit⟩ := List.exists_cons_of_ne_nil (splitOn_ne_nil sep t)
    rw [List.cons_append, splitOn, splitOn, ih, hsplit]
    split <;> rfl

theorem splitOn_of_notMem (h : sep ∉ t) : t.splitOn sep = [t] := by
  induction t with
  | nil => rfl
  | cons c t ih =>
    obtain ⟨hc, ht⟩ := not_or.mp (mt List.mem_cons.mpr h)
    rw [splitOn, if_neg (Ne.symm hc), ih ht]
    rfl

theorem splitOn_append (h : sep ∉ t) (r : Text) : (t ++ sep :: r).splitOn sep = t :: r.splitOn sep := by
  rw [splitOn_append_cons, splitOn_of_notMem h, List.singleton_append]

/-- All that is lost in pieces is what separates them. -/
theorem flatten_splitOn (sep : CodePoint) (t : Text) : (t.splitOn sep).flatten = t.filter (· ≠ sep) := by
  induction t with
  | nil => rfl
  | cons c t ih =>
    rw [splitOn]
    split
    next h => rw [List.flatten_cons, ih, List.filter_cons_of_neg (by simp [h]), List.nil_append]
    next h => rw [flatten_addToFirst, ih, List.filter_cons_of_pos (by simp [h])]

theorem mem_of_mem_splitOn {c : CodePoint} {p : Text} (hp : p ∈ t.splitOn sep) (hc : c ∈ p) :
    c ∈ t ∧ c ≠ sep := by
  have h : c ∈ (t.splitOn sep).flatten := List.mem_flatten.mpr ⟨p, hp, hc⟩
  rwa [flatten_splitOn, List.mem_filter, decide_eq_true_eq] at h

theorem notMem_of_mem_splitOn {p : Text} (h : p ∈ t.splitOn sep) : sep ∉ p := fun hp ↦
  (mem_of_mem_splitOn h hp).2 rfl

/-- A text is its pieces with the separator between them. -/
theorem join_splitOn (sep : CodePoint) (t : Text) : join [sep] (t.splitOn sep) = t := by
  induction t with
  | nil => rfl
  | cons c t ih =>
    obtain ⟨p, ps, hsplit⟩ := List.exists_cons_of_ne_nil (splitOn_ne_nil sep t)
    rw [splitOn]
    rw [hsplit] at ih ⊢
    split
    next h => rw [join, ih, List.nil_append, h, List.singleton_append]; nofun
    · cases ps with
      | nil => exact congrArg (c :: ·) ih
      | cons q qs => exact congrArg (c :: ·) ih

theorem splitOn_join {ps : List Text} (hne : ps ≠ []) (h : ∀ p ∈ ps, sep ∉ p) :
    (join [sep] ps).splitOn sep = ps := by
  induction ps with
  | nil => exact absurd rfl hne
  | cons p ps ih =>
    obtain ⟨hp, hps⟩ := List.forall_mem_cons.mp h
    cases ps with
    | nil => exact splitOn_of_notMem hp
    | cons q qs =>
      rw [join, List.append_assoc, List.singleton_append, splitOn_append hp,
        ih (List.cons_ne_nil q qs) hps]
      nofun

/-- Lines that end with line feeds, and hold none, are what a text of them is split into. -/
theorem splitOn_flatMap_lines {ls : List Text} (h : ∀ l ∈ ls, l.IsLine) :
    splitOn '\n' (ls.flatMap fun l ↦ (l ++ "\n" : Text)) = ls ++ [[]] := by
  induction ls with
  | nil => rfl
  | cons l ls ih =>
    obtain ⟨hl, hls⟩ := List.forall_mem_cons.mp h
    rw [List.flatMap_cons, List.append_assoc]
    exact (splitOn_append hl _).trans (congrArg (l :: ·) (ih hls))

/-- All that is lost in lines is what ends them. -/
theorem flatten_lines (t : Text) : t.lines.flatten = t.filter fun c ↦ !c.endsLine := by
  have hr : CodePoint.endsLine '\r' = true := by decide
  have hn : CodePoint.endsLine '\n' = true := by decide
  induction t using lines.induct with
  | case1 => rfl
  | case2 c h => simp [lines, h]
  | case3 c h => simp [lines, h]
  | case4 c d r h ih =>
    obtain ⟨rfl, rfl⟩ := h
    simp [lines, ih, hr, hn]
  | case5 c d r h hc ih =>
    rw [lines, if_neg h, if_pos hc, List.flatten_cons, List.nil_append, ih]
    exact (List.filter_cons_of_neg (by simp [hc])).symm
  | case6 c d r h hc ih =>
    rw [lines, if_neg h, if_neg hc, flatten_addToFirst, ih]
    exact (List.filter_cons_of_pos (by simp [hc])).symm

theorem endsLine_of_mem_lines {l : Text} {c : CodePoint} (hl : l ∈ t.lines) (hc : c ∈ l) :
    c.endsLine = false := by
  have h : c ∈ t.lines.flatten := List.mem_flatten.mpr ⟨l, hl, hc⟩
  rw [flatten_lines, List.mem_filter, Bool.not_eq_true'] at h
  exact h.2

theorem mem_of_mem_trimRight {c : CodePoint} (h : c ∈ t.trimRight) : c ∈ t := by
  rw [trimRight, List.mem_reverse] at h
  exact List.mem_reverse.mp ((List.dropWhile_suffix _).subset h)

theorem filter_trimRight (t : Text) :
    (t.trimRight.filter fun c ↦ !c.isBlank) = t.filter fun c ↦ !c.isBlank := by
  have hdrop (u : Text) :
      ((u.dropWhile CodePoint.isBlank).filter fun c ↦ !c.isBlank) = u.filter fun c ↦ !c.isBlank := by
    induction u with
    | nil => rfl
    | cons c u ih =>
      rw [List.dropWhile_cons]
      split
      next h => rw [ih, List.filter_cons_of_neg (by simp [h])]
      · rfl
  rw [trimRight, List.filter_reverse, hdrop, List.filter_reverse, List.reverse_reverse]

theorem unifyLineEnds_of_notMem (h : ('\r' : CodePoint) ∉ t) : t.unifyLineEnds = t := by
  induction t using unifyLineEnds.induct with
  | case1 => rfl
  | case2 | case4 => exact absurd List.mem_cons_self h
  | case3 c hc => rw [unifyLineEnds, if_neg hc]
  | case5 c d r hc ih => rw [unifyLineEnds, if_neg hc, ih fun hr ↦ h (List.mem_cons_of_mem c hr)]

theorem mem_of_mem_unifyLineEnds {c : CodePoint} (h : c ∈ t.unifyLineEnds) : c ∈ t ∨ c = '\n' := by
  fun_induction unifyLineEnds t with
  | case1 => exact .inl h
  | case2 => exact .inr (List.mem_singleton.mp h)
  | case3 => exact .inl h
  | case4 d r ih' ih =>
    rcases List.mem_cons.mp h with h | h
    · exact .inr h
    split at h
    · exact (ih' h).imp_left fun h ↦ List.mem_cons_of_mem _ (List.mem_cons_of_mem d h)
    · exact (ih h).imp_left (List.mem_cons_of_mem _)
  | case5 e d r _ ih =>
    rcases List.mem_cons.mp h with rfl | h
    · exact .inl List.mem_cons_self
    · exact (ih h).imp_left (List.mem_cons_of_mem e)

end OntologyStructs.Text

namespace OntologyStructs.CodePoint

theorem isBlank_of_endsLine {c : CodePoint} (h : c.endsLine) : c.isBlank := by
  simp only [endsLine, isBlank, Bool.or_eq_true, Bool.and_eq_true, decide_eq_true_eq, beq_iff_eq] at h ⊢
  omega

end OntologyStructs.CodePoint

namespace OntologyStructs.Text

/-- The trimmed lines hold all of a text that is not blank. -/
theorem filter_trimmed_lines (t : Text) :
    ((t.lines.map trimRight).flatten.filter fun c ↦ !c.isBlank) = t.filter fun c ↦ !c.isBlank := by
  have htrim : (t.lines.map trimRight).flatten.filter (fun c ↦ !c.isBlank) =
      t.lines.flatten.filter fun c ↦ !c.isBlank := by
    rw [List.filter_flatten, List.filter_flatten, List.map_map]
    exact congrArg List.flatten (List.map_congr_left fun l _ ↦ filter_trimRight l)
  rw [htrim, flatten_lines, List.filter_filter]
  apply List.filter_congr
  intro c _
  cases hc : c.endsLine with
  | false => simp
  | true => simp [CodePoint.isBlank_of_endsLine hc]

end OntologyStructs.Text
