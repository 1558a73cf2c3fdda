import OntologyStructs.Proofs.Naming.Key

namespace OntologyStructs.Naming

variable {keep : Bool} {id s : Text}

theorem lastSegment_append_slashes (id : Text) (n : Nat) :
    lastSegment (id ++ List.replicate n ('/' : CodePoint)) = lastSegment id := by
  have hslashes : ∀ c ∈ List.replicate n ('/' : CodePoint), (c == ('/' : CodePoint)) = true := by
    intro c hc
    rw [List.eq_of_mem_replicate hc, beq_self_eq_true]
  rw [lastSegment, List.reverse_append, List.reverse_replicate, List.dropWhile_append_of_pos hslashes,
    lastSegment]

theorem lastSegment_append (p : Text) (hs : ('/' : CodePoint) ∉ s) (hne : s ≠ []) :
    lastSegment (p ++ "/" ++ s) = s := by
  have hreverse : (p ++ "/" ++ s : Text).reverse = s.reverse ++ ('/' : CodePoint) :: p.reverse := by
    rw [List.reverse_append, List.reverse_append]
    rfl
  have hkeep : ∀ c ∈ s.reverse, (c != ('/' : CodePoint)) = true := fun c hc ↦
    bne_iff_ne.mpr (ne_slash_of_mem_reverse hs c hc)
  rw [lastSegment, hreverse,
    dropWhile_slash_append (ne_slash_of_mem_reverse hs) (mt List.reverse_eq_nil_iff.mp hne),
    List.takeWhile_append_of_pos hkeep, List.takeWhile_cons_of_neg (by simp), List.append_nil,
    List.reverse_reverse]

/-- Names are those of last segments. -/
theorem typeName_congr {id' : Text} (h : lastSegment id = lastSegment id') :
    typeName keep id = typeName keep id' := by
  rw [typeName, h, typeName]

theorem typeName_append_slashes (keep : Bool) (id : Text) (n : Nat) :
    typeName keep (id ++ List.replicate n ('/' : CodePoint)) = typeName keep id :=
  typeName_congr (lastSegment_append_slashes id n)

theorem typeName_of_ending (p : Text) (hs : ('/' : CodePoint) ∉ s) (hne : s ≠ []) :
    typeName keep (p ++ "/" ++ s) = typeName keep s :=
  typeName_congr ((lastSegment_append p hs hne).trans (lastSegment_of_notMem hs).symm)

/-- The vocabulary gives nothing to a name that does not keep it. -/
theorem typeName_eq_flatMap_filter (id : Text) : typeName false id =
    (((lastSegment id).splitOn ':').filter (· ≠ vocabulary)).flatMap (partName false) := by
  rw [typeName, flatMap_filter]
  refine List.flatMap_congr fun part _ ↦ ?_
  by_cases hv : part = vocabulary
  · rw [if_neg (by simpa using hv), hv]
    rfl
  · rw [if_pos (by simpa using hv)]

theorem typeName_vocabulary_append (hs : ('/' : CodePoint) ∉ s) :
    typeName false ("schema:" ++ s) = typeName false s := by
  have hvocabulary : ('/' : CodePoint) ∉ vocabulary := by decide
  have hnothing : typeName false vocabulary = [] := by decide
  exact (typeName_append hvocabulary hs).trans (congrArg (· ++ typeName false s) hnothing)

/-- A name comes from the last segment alone, whatever is before it and however many slashes are behind
it, and part by part. Without the vocabulary, what a local name is called is the same for the compact
form and for all that end in it, and parts that name the vocabulary can be added and repeated. -/
theorem typeName_by_segment :
    (∀ (keep : Bool) (id : Text) (n : Nat),
      typeName keep (id ++ List.replicate n ('/' : CodePoint)) = typeName keep id) ∧
    (∀ (keep : Bool) (p s : Text), ('/' : CodePoint) ∉ s → s ≠ [] →
      typeName keep (p ++ "/" ++ s) = typeName keep s) ∧
    (∀ (keep : Bool) (a b : Text), ('/' : CodePoint) ∉ a → ('/' : CodePoint) ∉ b →
      typeName keep (a ++ ":" ++ b) = typeName keep a ++ typeName keep b) ∧
    (∀ (p X : Text) (n : Nat), ('/' : CodePoint) ∉ X → X ≠ [] →
      typeName false (p ++ "/" ++ X ++ List.replicate n ('/' : CodePoint)) =
        typeName false ("schema:" ++ X)) ∧
    ∀ id id' : Text, ((lastSegment id).splitOn ':').filter (· ≠ vocabulary) =
      ((lastSegment id').splitOn ':').filter (· ≠ vocabulary) → typeName false id = typeName false id' := by
  refine ⟨typeName_append_slashes, fun _ p _ ↦ typeName_of_ending p, fun _ _ _ ↦ typeName_append, ?_, ?_⟩
  · intro p X n hX hne
    rw [typeName_append_slashes, typeName_of_ending p hX hne, typeName_vocabulary_append hX]
  · intro id id' h
    rw [typeName_eq_flatMap_filter, h, typeName_eq_flatMap_filter]

/-- The colon of a scheme is before the last slash, and a vocabulary part can be behind it. -/
theorem isPartOf_by_segment :
    typeName true "https://schema.org/isPartOf//" = "PropIsPartOf" ∧
    typeName true "rdfs:label" = "PropRdfsPropLabel" ∧
    typeName false "https://schema.org/isPartOf/" = typeName false "schema:isPartOf" ∧
    typeName false "https://schema.org/schema:isPartOf:schema" = typeName false "isPartOf" := by
  obtain ⟨hslashes, hending, hparts, hcompact, hvocabulary⟩ := typeName_by_segment
  have hslash : ('/' : CodePoint) ∉ ("isPartOf" : Text) := by decide
  have hne : ("isPartOf" : Text) ≠ [] := by decide
  refine ⟨?_, ?_, hcompact "https://schema.org" "isPartOf" 1 hslash hne, hvocabulary _ _ (by decide)⟩
  · calc typeName true "https://schema.org/isPartOf//"
      _ = typeName true "https://schema.org/isPartOf" := hslashes true "https://schema.org/isPartOf" 2
      _ = typeName true "isPartOf" := hending true "https://schema.org" "isPartOf" hslash hne
      _ = "PropIsPartOf" := by decide
  · exact (hparts true "rdfs" "label" (by decide) (by decide)).trans (by decide)

end OntologyStructs.Naming
