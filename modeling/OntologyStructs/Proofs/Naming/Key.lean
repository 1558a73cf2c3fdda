import Mathlib.Data.List.Basic
import OntologyStructs.Proofs.Naming

namespace OntologyStructs

theorem flatMap_filter {α β : Type} (p : α → Bool) (f : α → List β) (l : List α) :
    (l.filter p).flatMap f = l.flatMap fun a ↦ if p a then f a else [] := by
  induction l with
  | nil => rfl
  | cons a l ih =>
    rw [List.flatMap_cons, ← ih]
    by_cases ha : p a
    · rw [List.filter_cons_of_pos ha, if_pos ha, List.flatMap_cons]
    · rw [List.filter_cons_of_neg ha, if_neg ha, List.nil_append]

namespace Text

theorem lower_append (t u : Text) : (t ++ u).lower = t.lower ++ u.lower := List.map_append

theorem lower_flatMap {α : Type} (f : α → Text) (l : List α) :
    lower (l.flatMap f) = l.flatMap fun a ↦ (f a).lower := List.map_flatMap

/-- In small letters a text has as many letters and digits. -/
theorem length_filter_of_lower_eq {t u : Text} (h : t.lower = u.lower) :
    (t.filter CodePoint.isAlphanumeric).length = (u.filter CodePoint.isAlphanumeric).length := by
  have hcount (t : Text) : (t.filter CodePoint.isAlphanumeric).length =
      t.lower.countP CodePoint.isAlphanumeric := by
    have hp : CodePoint.isAlphanumeric ∘ CodePoint.lower = CodePoint.isAlphanumeric :=
      funext CodePoint.isAlphanumeric_lower
    rw [lower, List.countP_map, hp, List.countP_eq_length_filter]
  rw [hcount, hcount, h]

end Text

namespace Naming

variable {keep : Bool} {id part : Text}

theorem lower_capitalize (w : Text) : (capitalize w).lower = w.lower := by
  cases w with
  | nil => rfl
  | cons c w =>
    simp only [capitalize, Text.lower, List.map_cons, List.map_map, CodePoint.lower_upper]
    exact congrArg (c.lower :: ·) (List.map_congr_left fun d _ ↦ d.lower_lower)

theorem lower_pascal (t : Text) :
    (pascal t).lower = Text.lower (t.filter CodePoint.isAlphanumeric) := by
  rw [pascal, Text.lower_flatMap, ← flatten_words, List.flatten_eq_flatMap, Text.lower_flatMap]
  exact congrArg (List.flatMap · _) (funext lower_capitalize)

theorem length_pascal (t : Text) :
    (pascal t).length = (t.filter CodePoint.isAlphanumeric).length := by
  have h := congrArg List.length (lower_pascal t)
  simpa only [Text.lower, List.length_map] using h

def isKept (keep : Bool) (part : Text) : Bool := keep || part ≠ vocabulary

def beginsUpper (t : Text) : Bool := t.head?.any CodePoint.isUpper

/-- What a part gives to a name, up to case: its letters and digits, marked unless the part is the
vocabulary or begins with a capital. -/
def partKey (part : Text) : Text :=
  (if part = vocabulary ∨ beginsUpper part then [] else "prop") ++
    Text.lower (part.filter CodePoint.isAlphanumeric)

def key (keep : Bool) (id : Text) : Text :=
  (((lastSegment id).splitOn ':').filter (isKept keep)).flatMap partKey

theorem isKept_vocabulary : isKept keep vocabulary = keep := by
  cases keep <;> decide

theorem partKey_vocabulary : partKey vocabulary = vocabulary := by decide

theorem isKept_of_ne (h : part ≠ vocabulary) : isKept keep part := by
  rw [isKept, decide_eq_true h, Bool.or_true]

theorem not_isPropertyPart_of_beginsUpper (h : beginsUpper part) : isPropertyPart part = false := by
  cases part with
  | nil => cases h
  | cons c r => exact congrArg not (CodePoint.changesInLower_of_isUpper h)

theorem isPropertyPart_of_isLower {c : CodePoint} (h : part.head? = some c) (hc : c.isLower) :
    isPropertyPart part := by
  rw [isPropertyPart, h, Option.any_some, CodePoint.changesInLower_of_isLower hc]
  rfl

/-- In ASCII only capitals change. -/
theorem isPropertyPart_of_isAscii (h : ∀ c ∈ part, c.isAscii) :
    isPropertyPart part = !beginsUpper part := by
  cases part with
  | nil => rfl
  | cons c r => exact congrArg not (if_pos (h c List.mem_cons_self))

theorem partName_of_beginsUpper (h : beginsUpper part) : partName keep part = pascal part := by
  have hv : part ≠ vocabulary := by
    rintro rfl
    cases h
  rw [partName, if_neg hv, not_isPropertyPart_of_beginsUpper h, if_neg Bool.false_ne_true]

theorem partName_of_isPropertyPart (hv : part ≠ vocabulary) (h : isPropertyPart part) :
    partName keep part = propertyMark ++ pascal part := by
  rw [partName, if_neg hv, if_pos h]

theorem lower_partName (h : ∀ c ∈ part, c.isAscii) :
    (partName keep part).lower = if isKept keep part then partKey part else [] := by
  by_cases hv : part = vocabulary
  · subst hv
    rw [isKept_vocabulary, partKey_vocabulary, partName, if_pos rfl]
    cases keep <;> decide
  rw [if_pos (isKept_of_ne hv), partKey, ← lower_pascal]
  by_cases hb : beginsUpper part
  · rw [partName_of_beginsUpper hb, if_pos (.inr hb), List.nil_append]
  · have hproperty : isPropertyPart part := by
      rw [isPropertyPart_of_isAscii h, Bool.not_eq_true', Bool.eq_false_iff]
      exact hb
    rw [partName_of_isPropertyPart hv hproperty, if_neg (not_or.mpr ⟨hv, hb⟩), Text.lower_append]
    rfl

theorem lower_typeName (h : ∀ c ∈ id, c.isAscii) : (typeName keep id).lower = key keep id := by
  have hparts : ∀ part ∈ (lastSegment id).splitOn ':', ∀ c ∈ part, c.isAscii := fun _ hp c hc ↦
    h c ((lastSegment_sublist id).subset (Text.mem_of_mem_splitOn hp hc).1)
  rw [typeName, Text.lower_flatMap, key, flatMap_filter]
  exact List.flatMap_congr fun part hp ↦ lower_partName (hparts part hp)

/-- The mark makes the name of a property too long for the class that has its letters. -/
theorem partName_ne_of_lower_eq {X y : Text} (h : X.lower = y.lower) (hX : beginsUpper X)
    (hv : y ≠ vocabulary) (hy : isPropertyPart y) : partName keep X ≠ partName keep y := by
  intro heq
  rw [partName_of_beginsUpper hX, partName_of_isPropertyPart hv hy] at heq
  have hlength := congrArg List.length heq
  have hmark : propertyMark.length = 4 := by decide
  rw [List.length_append, length_pascal, length_pascal, Text.length_filter_of_lower_eq h, hmark] at hlength
  omega

/-- A name keeps all letters and digits of the parts that stand in it, in order and up to case. So
identifiers share a name only if they have these in common, and a class never shares one with the
property that is spelled like it. -/
theorem typeName_up_to_case (keep : Bool) :
    (∀ id : Text, (∀ c ∈ id, c.isAscii) → (typeName keep id).lower = key keep id) ∧
    (∀ id id' : Text, (∀ c ∈ id, c.isAscii) → (∀ c ∈ id', c.isAscii) →
      typeName keep id = typeName keep id' → key keep id = key keep id') ∧
    ∀ X y : Text, ('/' : CodePoint) ∉ X ++ y → (':' : CodePoint) ∉ X ++ y → X.lower = y.lower →
      (∃ c, X.head? = some c ∧ c.isUpper) → (∃ c, y.head? = some c ∧ c.isLower) → y ≠ vocabulary →
      typeName keep (vocabulary ++ ":" ++ X) ≠ typeName keep (vocabulary ++ ":" ++ y) := by
  refine ⟨fun _ ↦ lower_typeName, fun id id' h h' heq ↦ ?_, ?_⟩
  · rw [← lower_typeName h, ← lower_typeName h', heq]
  · intro X y hslash hcolon hlower ⟨c, hc, hupper⟩ ⟨d, hd, hsmall⟩ hv heq
    have hX : beginsUpper X := by
      rw [beginsUpper, hc]
      exact hupper
    obtain ⟨hslashX, hslashy⟩ := not_or.mp (mt List.mem_append.mpr hslash)
    obtain ⟨hcolonX, hcolony⟩ := not_or.mp (mt List.mem_append.mpr hcolon)
    have hvocabulary : ('/' : CodePoint) ∉ vocabulary := by decide
    rw [typeName_append hvocabulary hslashX, typeName_append hvocabulary hslashy, List.append_right_inj,
      typeName_of_notMem hslashX hcolonX, typeName_of_notMem hslashy hcolony] at heq
    exact partName_ne_of_lower_eq hlower hX hv (isPropertyPart_of_isLower hd hsmall) heq

/-- An acronym, a digit, a hyphen and an empty part, and a class and a property with one spelling. -/
theorem siteMap_up_to_case :
    (typeName false "https://schema.org/schema::SiteMAP-2b:isPartOf/").lower =
      "propsitemap2bpropispartof" ∧
    typeName false "SITE:Map" ≠ typeName false "site:Map" ∧
    typeName true "schema:Map" ≠ typeName true "schema:map" := by
  refine ⟨?_, fun h ↦ ?_, ?_⟩
  · rw [(typeName_up_to_case false).1 _ (List.all_eq_true.mp (by decide))]
    decide
  · have hkeys := (typeName_up_to_case false).2.1 _ _ (List.all_eq_true.mp (by decide))
      (List.all_eq_true.mp (by decide)) h
    exact absurd hkeys (by decide)
  · exact (typeName_up_to_case true).2.2 "Map" "map" (by decide) (by decide) (by decide)
      ⟨_, rfl, by decide⟩ ⟨_, rfl, by decide⟩ (by decide)

end Naming

end OntologyStructs
