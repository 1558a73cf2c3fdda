import OntologyStructs.Proofs.Naming.Key

namespace OntologyStructs.Naming

variable {keep : Bool} {id t : Text}

/-- A capital and then letters and digits: a name that other packages see. -/
def IsExported (t : Text) : Prop := ∃ c r, t = c :: r ∧ c.isUpper ∧ ∀ d ∈ r, d.isAlphanumeric

/-- A segment that names the vocabulary, once or several times, and nothing else. -/
def IsVocabulary (segment : Text) : Prop :=
  ∃ n, segment = Text.join ":" (List.replicate (n + 1) vocabulary)

/-- Nothing small is in front, so what is small there in small letters is a capital. -/
theorem Capitalized.isExported (h : Capitalized t) {c : CodePoint} (hc : t.lower.head? = some c)
    (hl : c.isLower) : IsExported t := by
  cases t with
  | nil => cases hc
  | cons d r =>
    obtain rfl : d.lower = c := Option.some.inj hc
    exact ⟨d, r, rfl, CodePoint.isUpper_of_isLower_lower (h.2 d rfl) hl,
      fun e he ↦ h.1 e (List.mem_cons_of_mem d he)⟩

theorem head?_partKey (part : Text) : ∃ c, (partKey part).head? = some c ∧ c.isLower := by
  by_cases hv : part = vocabulary
  · rw [hv, partKey_vocabulary]
    exact ⟨_, rfl, by decide⟩
  rw [partKey]
  by_cases hb : beginsUpper part
  · cases part with
    | nil => cases hb
    | cons c r =>
      have hc : c.isUpper := hb
      have halnum : c.isAlphanumeric := CodePoint.isAlphanumeric_iff.mpr (.inl hc)
      rw [if_pos (.inr hb), List.nil_append, List.filter_cons_of_pos halnum]
      exact ⟨c.lower, rfl, CodePoint.isLower_lower hc⟩
  · rw [if_neg (not_or.mpr ⟨hv, hb⟩)]
    exact ⟨_, rfl, by decide⟩

theorem head?_flatMap_partKey {parts : List Text} (h : parts ≠ []) :
    ∃ c, (parts.flatMap partKey).head? = some c ∧ c.isLower := by
  obtain ⟨part, parts, rfl⟩ := List.exists_cons_of_ne_nil h
  obtain ⟨c, hc, hl⟩ := head?_partKey part
  refine ⟨c, ?_, hl⟩
  rw [List.flatMap_cons, List.head?_append, hc, Option.some_or]

theorem isVocabulary_iff : IsVocabulary t ↔ ∀ part ∈ t.splitOn ':', part = vocabulary := by
  constructor
  · rintro ⟨n, rfl⟩ part hpart
    have hcolon : ∀ p ∈ List.replicate (n + 1) vocabulary, (':' : CodePoint) ∉ p := fun p hp ↦
      List.eq_of_mem_replicate hp ▸ by decide
    have hsplit : (Text.join ":" (List.replicate (n + 1) vocabulary)).splitOn ':' =
        List.replicate (n + 1) vocabulary := Text.splitOn_join (List.cons_ne_nil _ _) hcolon
    rw [hsplit] at hpart
    exact List.eq_of_mem_replicate hpart
  · intro h
    have hlength := List.length_pos_iff.mpr (Text.splitOn_ne_nil ':' t)
    refine ⟨(t.splitOn ':').length - 1, ?_⟩
    rw [Nat.sub_add_cancel hlength, ← List.eq_replicate_of_mem h]
    exact (Text.join_splitOn ':' t).symm

theorem filter_isKept_eq_nil {parts : List Text} (h : parts ≠ []) :
    parts.filter (isKept keep) = [] ↔ keep = false ∧ ∀ part ∈ parts, part = vocabulary := by
  rw [List.filter_eq_nil_iff]
  cases keep with
  | false => simp [isKept]
  | true => simp [isKept, List.eq_nil_iff_forall_not_mem.not.mp h]

theorem typeName_eq_nil_or_isExported (h : ∀ c ∈ id, c.isAscii) :
    (typeName keep id = [] ∧ keep = false ∧ IsVocabulary (lastSegment id)) ∨
      (IsExported (typeName keep id) ∧ ¬(keep = false ∧ IsVocabulary (lastSegment id))) := by
  have hlower : (typeName keep id).lower = key keep id := lower_typeName h
  have hnone : ((lastSegment id).splitOn ':').filter (isKept keep) = [] ↔
      keep = false ∧ IsVocabulary (lastSegment id) := by
    rw [isVocabulary_iff]
    exact filter_isKept_eq_nil (Text.splitOn_ne_nil ':' _)
  rw [key] at hlower
  by_cases hkept : ((lastSegment id).splitOn ':').filter (isKept keep) = []
  · rw [hkept] at hlower
    exact .inl ⟨List.map_eq_nil_iff.mp hlower, hnone.mp hkept⟩
  · obtain ⟨c, hc, hl⟩ := head?_flatMap_partKey hkept
    rw [← hlower] at hc
    exact .inr ⟨(capitalized_typeName keep id).isExported hc hl, mt hnone.mpr hkept⟩

/-- Names are made of letters and digits and do not begin with a small letter. In ASCII they are what
other packages see, unless all that is named is the vocabulary and it is dropped. -/
theorem typeName_exported (keep : Bool) (id : Text) :
    (∀ c ∈ typeName keep id, c.isLetter ∨ c.isDigit) ∧
    (∀ c, (typeName keep id).head? = some c → ¬c.isLower) ∧
    ((∀ c ∈ id, c.isAscii) →
      (typeName keep id = [] ∧ keep = false ∧ IsVocabulary (lastSegment id)) ∨
      (IsExported (typeName keep id) ∧ ¬(keep = false ∧ IsVocabulary (lastSegment id)))) := by
  obtain ⟨halnum, hfirst⟩ := capitalized_typeName keep id
  refine ⟨fun c hc ↦ ?_, fun c hc ↦ ?_, typeName_eq_nil_or_isExported⟩
  · rw [← Bool.or_eq_true]
    exact halnum c hc
  · rw [hfirst c hc]
    exact Bool.false_ne_true

/-- A digit and a tab in front, and the vocabulary alone. -/
theorem threeD_exported :
    IsExported (typeName false "https://schema.org/\t3DModel//") ∧
      typeName false "https://schema.org/schema:schema/" = [] := by
  constructor
  · rcases (typeName_exported false "https://schema.org/\t3DModel//").2.2
      (List.all_eq_true.mp (by decide)) with ⟨h, _⟩ | ⟨h, _⟩
    · exact absurd h (by decide)
    · exact h
  · rcases (typeName_exported false "https://schema.org/schema:schema/").2.2
      (List.all_eq_true.mp (by decide)) with ⟨h, _⟩ | ⟨_, h⟩
    · exact h
    · exact absurd ⟨rfl, 1, by decide⟩ h

end OntologyStructs.Naming
