import Mathlib.Data.List.TakeWhile
import OntologyStructs.Naming
import OntologyStructs.Proofs.CodePoint
import OntologyStructs.Proofs.Lines

namespace OntologyStructs

namespace Text

variable {keep : CodePoint → Bool} {t w : Text} {sep : CodePoint}

theorem flatten_stretches (keep : CodePoint → Bool) (t : Text) :
    (t.stretches keep).flatten = t.filter keep := by
  induction t using stretches.induct keep with
  | case1 => rfl
  | case2 c h => simp [stretches, h]
  | case3 c h => simp [stretches, h]
  | case4 c d r h ih =>
    have hc : ¬keep c := by simpa using h
    rw [stretches, if_pos h, ih, List.filter_cons_of_neg hc]
  | case5 c d r h hd ih =>
    have hc : keep c := by simpa using h
    rw [stretches, if_neg h, if_pos hd, flatten_addToFirst, ih, List.filter_cons_of_pos hc]
  | case6 c d r h hd ih =>
    have hc : keep c := by simpa using h
    rw [stretches, if_neg h, if_neg hd, List.flatten_cons, ih, List.filter_cons_of_pos hc,
      List.singleton_append]

theorem keep_of_mem_stretches {c : CodePoint} (hw : w ∈ t.stretches keep) (hc : c ∈ w) : keep c := by
  have hfilter : c ∈ t.filter keep := by
    rw [← flatten_stretches]
    exact List.mem_flatten.mpr ⟨w, hw, hc⟩
  exact (List.mem_filter.mp hfilter).2

theorem stretches_cons_of_keep {c d : CodePoint} {r : Text} (hc : keep c) (hd : keep d) :
    stretches keep (c :: d :: r) = addToFirst c (stretches keep (d :: r)) := by
  rw [stretches, if_neg (by simpa using hc), if_pos hd]

theorem stretches_of_forall (hw : ∀ c ∈ w, keep c) (hne : w ≠ []) : stretches keep w = [w] := by
  induction w with
  | nil => exact absurd rfl hne
  | cons c w ih =>
    obtain ⟨hc, hw⟩ := List.forall_mem_cons.mp hw
    cases w with
    | nil => exact if_pos hc
    | cons d w =>
      rw [stretches_cons_of_keep hc (hw d List.mem_cons_self), ih hw (List.cons_ne_nil d w)]
      rfl

/-- What is left out ends a stretch. -/
theorem stretches_append (hw : ∀ c ∈ w, keep c) (hne : w ≠ []) (hsep : ¬keep sep) (u : Text) :
    stretches keep (w ++ sep :: u) = w :: stretches keep u := by
  induction w with
  | nil => exact absurd rfl hne
  | cons c w ih =>
    obtain ⟨hc, hw⟩ := List.forall_mem_cons.mp hw
    cases w with
    | nil =>
      have hskip : stretches keep (sep :: u) = stretches keep u := by
        cases u with
        | nil => simp [stretches, hsep]
        | cons d r => rw [stretches, if_pos (by simpa using hsep)]
      rw [List.singleton_append, stretches, if_neg (by simpa using hc), if_neg hsep, hskip]
    | cons d w =>
      rw [List.cons_append, List.cons_append, stretches_cons_of_keep hc (hw d List.mem_cons_self),
        ← List.cons_append, ih hw (List.cons_ne_nil d w)]
      rfl

theorem stretches_join {ws : List Text} (h : ∀ w ∈ ws, w ≠ [] ∧ ∀ c ∈ w, keep c) (hsep : ¬keep sep) :
    stretches keep (join [sep] ws) = ws := by
  induction ws with
  | nil => rfl
  | cons w ws ih =>
    obtain ⟨⟨hne, hw⟩, hws⟩ := List.forall_mem_cons.mp h
    cases ws with
    | nil => exact stretches_of_forall hw hne
    | cons v vs =>
      rw [join, List.append_assoc, List.singleton_append, stretches_append hw hne hsep, ih hws]
      exact List.cons_ne_nil v vs

end Text

namespace Naming

theorem flatten_caseWords (t : Text) : (caseWords t).flatten = t := by
  induction t using caseWords.induct with
  | case1 => rfl
  | case2 c => rfl
  | case3 c d r h ih => rw [caseWords, if_pos h, List.flatten_cons, ih, List.singleton_append]
  | case4 c d r h ih => rw [caseWords, if_neg h, Text.flatten_addToFirst, ih]

/-- All that is lost in words is what is no letter or digit. -/
theorem flatten_words (t : Text) : (words t).flatten = t.filter CodePoint.isAlphanumeric := by
  rw [words, List.flatten_eq_flatMap, List.flatMap_assoc, ← Text.flatten_stretches,
    List.flatten_eq_flatMap]
  refine congrArg (List.flatMap · _) (funext fun stretch ↦ ?_)
  rw [← List.flatten_eq_flatMap, flatten_caseWords]
  rfl

theorem isAlphanumeric_of_mem_words {t w : Text} {c : CodePoint} (hw : w ∈ words t) (hc : c ∈ w) :
    c.isAlphanumeric := by
  have hfilter : c ∈ t.filter CodePoint.isAlphanumeric := by
    rw [← flatten_words]
    exact List.mem_flatten.mpr ⟨w, hw, hc⟩
  exact (List.mem_filter.mp hfilter).2

/-- A text that can stand in a name, with nothing small in front. -/
def Capitalized (t : Text) : Prop :=
  (∀ c ∈ t, c.isAlphanumeric) ∧ ∀ c ∈ t.head?, c.isLower = false

theorem capitalized_nil : Capitalized [] := ⟨nofun, nofun⟩

theorem Capitalized.append {t u : Text} (ht : Capitalized t) (hu : Capitalized u) :
    Capitalized (t ++ u) := by
  refine ⟨fun c hc ↦ (List.mem_append.mp hc).elim (ht.1 c) (hu.1 c), ?_⟩
  cases t with
  | nil => exact hu.2
  | cons d t => exact ht.2

theorem capitalized_flatMap {α : Type} {f : α → Text} {l : List α}
    (h : ∀ a ∈ l, Capitalized (f a)) : Capitalized (l.flatMap f) := by
  induction l with
  | nil => exact capitalized_nil
  | cons a l ih =>
    obtain ⟨ha, hl⟩ := List.forall_mem_cons.mp h
    exact ha.append (ih hl)

theorem capitalized_capitalize {w : Text} (h : ∀ c ∈ w, c.isAlphanumeric) :
    Capitalized (capitalize w) := by
  cases w with
  | nil => exact capitalized_nil
  | cons c w =>
    obtain ⟨hc, hw⟩ := List.forall_mem_cons.mp h
    refine ⟨List.forall_mem_cons.mpr ⟨CodePoint.isAlphanumeric_upper hc, ?_⟩, ?_⟩
    · exact List.forall_mem_map.mpr fun d hd ↦ d.isAlphanumeric_lower.trans (hw d hd)
    · rintro _ ⟨⟩
      exact CodePoint.isLower_upper c

theorem capitalized_pascal (t : Text) : Capitalized (pascal t) :=
  capitalized_flatMap fun _ hw ↦ capitalized_capitalize fun _ ↦ isAlphanumeric_of_mem_words hw

theorem capitalized_partName (keep : Bool) (part : Text) : Capitalized (partName keep part) := by
  have hmark : Capitalized propertyMark := by
    constructor
    · exact List.all_eq_true.mp (by decide)
    · rintro _ ⟨⟩
      rfl
  rw [partName]
  split
  · split
    · exact capitalized_pascal part
    · exact capitalized_nil
  · split
    · exact hmark.append (capitalized_pascal part)
    · exact capitalized_pascal part

theorem capitalized_typeName (keep : Bool) (id : Text) : Capitalized (typeName keep id) :=
  capitalized_flatMap fun part _ ↦ capitalized_partName keep part

theorem lastSegment_sublist (id : Text) : (lastSegment id).Sublist id := by
  rw [lastSegment, ← List.reverse_sublist, List.reverse_reverse]
  exact (List.takeWhile_sublist _).trans (List.dropWhile_sublist _)

/-- No slash is at the end of what ends in a segment. -/
theorem dropWhile_slash_append {r : Text} (hr : ∀ c ∈ r, c ≠ ('/' : CodePoint)) (hne : r ≠ [])
    (u : Text) : ((r ++ u).dropWhile fun (c : CodePoint) ↦ c == '/') = r ++ u := by
  obtain ⟨c, r, rfl⟩ := List.exists_cons_of_ne_nil hne
  rw [List.cons_append]
  exact List.dropWhile_cons_of_neg (by simpa using hr c List.mem_cons_self)

theorem ne_slash_of_mem_reverse {s : Text} (h : ('/' : CodePoint) ∉ s) :
    ∀ c ∈ s.reverse, c ≠ ('/' : CodePoint) := fun _ hc hslash ↦ h (hslash ▸ List.mem_reverse.mp hc)

theorem lastSegment_of_notMem {id : Text} (h : ('/' : CodePoint) ∉ id) : lastSegment id = id := by
  rcases eq_or_ne id [] with rfl | hne
  · rfl
  have hkeep := ne_slash_of_mem_reverse h
  have hdrop := dropWhile_slash_append hkeep (mt List.reverse_eq_nil_iff.mp hne) []
  rw [List.append_nil] at hdrop
  have htake : (id.reverse.takeWhile fun (c : CodePoint) ↦ c != '/') = id.reverse :=
    List.takeWhile_eq_self_iff.mpr fun c hc ↦ bne_iff_ne.mpr (hkeep c hc)
  rw [lastSegment, hdrop, htake, List.reverse_reverse]

/-- Names of parts stand one behind the other. -/
theorem typeName_append {keep : Bool} {t u : Text} (ht : ('/' : CodePoint) ∉ t)
    (hu : ('/' : CodePoint) ∉ u) :
    typeName keep (t ++ ":" ++ u) = typeName keep t ++ typeName keep u := by
  have hslash : ('/' : CodePoint) ∉ (t ++ ":" ++ u : Text) := fun h ↦
    (List.mem_append.mp h).elim (fun h ↦ (List.mem_append.mp h).elim ht (by decide)) hu
  have hparts : (t ++ ":" ++ u : Text).splitOn ':' = t.splitOn ':' ++ u.splitOn ':' := by
    rw [List.append_assoc]
    exact Text.splitOn_append_cons ':' t u
  simp only [typeName, lastSegment_of_notMem hslash, lastSegment_of_notMem ht,
    lastSegment_of_notMem hu, hparts, List.flatMap_append]

theorem typeName_of_notMem {keep : Bool} {t : Text} (hslash : ('/' : CodePoint) ∉ t)
    (hcolon : (':' : CodePoint) ∉ t) : typeName keep t = partName keep t := by
  rw [typeName, lastSegment_of_notMem hslash, Text.splitOn_of_notMem hcolon, List.flatMap_singleton]

end Naming

end OntologyStructs
