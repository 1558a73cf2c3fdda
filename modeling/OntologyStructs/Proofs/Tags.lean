import OntologyStructs.Proofs.GoFile
import OntologyStructs.Proofs.Utf8

namespace OntologyStructs

theorem Text.unsplit_of_isEncodable {t : Text} (h : t.isEncodable) : t.Unsplit := by
  induction t with
  | nil => exact .nil
  | cons c t ih =>
    rw [isEncodable, List.all_cons, Bool.and_eq_true, Bool.not_eq_true'] at h
    have hc : ¬c.isHighSurrogate := by
      have hnone := Bool.eq_false_iff.mp h.1
      rw [ne_eq, CodePoint.isSurrogate_iff] at hnone
      rw [CodePoint.isHighSurrogate_iff]
      omega
    cases t with
    | nil => exact .singleton c
    | cons d t => exact .cons_cons (fun hpair ↦ hc hpair.1) (ih h.2)

namespace CodePoint

theorem hexDigit_ne_backtick (n : Nat) : hexDigit n ≠ '`' :=
  forall_hexDigit (p := fun c ↦ c ≠ '`') (by decide) n

theorem backtick_notMem_unicodeEscape (unit : Nat) : ('`' : CodePoint) ∉ unicodeEscape unit := by
  have hu : ('`' : CodePoint) ∉ ("\\u" : Text) := by decide
  simp only [unicodeEscape, Text.hex, List.mem_append, List.mem_singleton, List.not_mem_nil, or_false,
    hu, Ne.symm (hexDigit_ne_backtick _), not_false_eq_true]

/-- Only a backtick itself is written with a backtick. -/
theorem backtick_mem_asAscii {c : CodePoint} : ('`' : CodePoint) ∈ c.asAscii ↔ c = '`' := by
  constructor
  · intro h
    rw [asAscii] at h
    cases hshort : c.shortForm? with
    | some w =>
      obtain ⟨d, rfl, _, _, hd, _⟩ := exists_of_shortForm? hshort
      rw [hshort, Option.getD_some] at h
      rcases List.mem_pair.mp h with h | rfl
      · exact absurd h (by decide)
      · cases hd
    | none =>
      rw [hshort, Option.getD_none] at h
      split at h
      · exact (List.mem_singleton.mp h).symm
      · obtain ⟨unit, _, hunit⟩ := List.mem_flatMap.mp h
        exact absurd hunit (backtick_notMem_unicodeEscape unit)
  · rintro rfl
    decide

end CodePoint

theorem Json.backtick_mem_asciiString {t : Text} :
    ('`' : CodePoint) ∈ asciiString t ↔ ('`' : CodePoint) ∈ t := by
  have hquote : ('`' : CodePoint) ∉ ("\"" : Text) := by decide
  simp only [asciiString, List.mem_append, hquote, false_or, or_false, List.mem_flatMap,
    CodePoint.backtick_mem_asAscii, exists_eq_right]

namespace GoFile

/-- One raw string: all that stands between two backticks, in ASCII and on one line. -/
def IsRawString (t : Text) : Prop :=
  ∃ body : Text, t = "`" ++ body ++ "`" ∧ ∀ c ∈ body, c.isAscii ∧ c ≠ '`' ∧ c ≠ '\n' ∧ c ≠ '\r'

theorem isRawString_iff {body : Text} : IsRawString ("`" ++ body ++ "`") ↔
    ∀ c ∈ body, c.isAscii ∧ c ≠ '`' ∧ c ≠ '\n' ∧ c ≠ '\r' := by
  constructor
  · rintro ⟨body', hbody, h⟩
    obtain rfl : body = body' := List.append_cancel_left (List.append_cancel_right hbody)
    exact h
  · exact fun h ↦ ⟨body, rfl, h⟩

theorem isPlainAscii_tagBody (f : Field) :
    ("json:" ++ Json.asciiString f.tag : Text).all CodePoint.isPlainAscii := by
  have hkey : ("json:" : Text).all CodePoint.isPlainAscii := by decide
  rw [List.all_append, hkey, Json.isPlainAscii_asciiString]
  rfl

/-- All but a backtick is written so that it fits into the raw string. -/
theorem isRawString_goTag (f : Field) : IsRawString f.goTag ↔ ('`' : CodePoint) ∉ f.tag := by
  have htag : f.goTag = "`" ++ ("json:" ++ Json.asciiString f.tag) ++ "`" := rfl
  have hkey : ('`' : CodePoint) ∉ ("json:" : Text) := by decide
  rw [htag, isRawString_iff]
  constructor
  · intro h hmem
    exact (h _ (List.mem_append_right _ (Json.backtick_mem_asciiString.mpr hmem))).2.1 rfl
  · intro h c hc
    have hplain := CodePoint.isPlainAscii_iff.mp (List.all_eq_true.mp (isPlainAscii_tagBody f) c hc)
    refine ⟨decide_eq_true (by omega), ?_, ?_, ?_⟩
    · rintro rfl
      exact (List.mem_append.mp hc).elim hkey fun hc ↦ h (Json.backtick_mem_asciiString.mp hc)
    · rintro rfl
      exact absurd hplain.1 (by decide)
    · rintro rfl
      exact absurd hplain.1 (by decide)

theorem goTag_inj {f g : Field} (hf : f.tag.Unsplit) (hg : g.tag.Unsplit) :
    f.goTag = g.goTag ↔ f.tag = g.tag := by
  constructor
  · intro h
    have hread := readTag_goTag hf
    rw [h, readTag_goTag hg] at hread
    exact (Option.some.inj hread).symm
  · intro h
    rw [Field.goTag, h, Field.goTag]

theorem goTag_suffix_rows (fields : List Field) :
    List.Forall₂ (fun f row ↦ (" " ++ f.goTag : Text) <:+ row) fields (rows fields) := by
  rw [rows, List.forall₂_map_right_iff, List.forall₂_same]
  intro f _
  rw [List.append_assoc _ (" " : Text)]
  exact List.suffix_append _ _

/-- A tag names its key and holds a literal that reads as what it is for, so that tags tell apart what
they are for, and a row ends in its tag. The tag is one raw string unless it is for something with a
backtick, which a raw string cannot hold. -/
theorem tag_holds_source {f : Field} (h : f.tag.isEncodable) :
    (∃ body : Text, f.goTag = "`json:\"" ++ body ++ "\"`" ∧
      (∀ c ∈ body, 0x20 ≤ c.val ∧ c.val < 0x7F) ∧
      Json.read ("\"" ++ body ++ "\"") = .ok (.text f.tag)) ∧
    (IsRawString f.goTag ↔ ('`' : CodePoint) ∉ f.tag) ∧
    (∀ g : Field, g.tag.isEncodable → (f.goTag = g.goTag ↔ f.tag = g.tag)) ∧
    ∀ fields : List Field,
      List.Forall₂ (fun f row ↦ (" " ++ f.goTag : Text) <:+ row) fields (rows fields) := by
  have hunsplit := Text.unsplit_of_isEncodable h
  refine ⟨⟨f.tag.flatMap CodePoint.asAscii, ?_, ?_, Json.read_asciiString hunsplit⟩, isRawString_goTag f,
    fun g hg ↦ goTag_inj hunsplit (Text.unsplit_of_isEncodable hg), goTag_suffix_rows⟩
  · simp only [Field.goTag, Json.asciiString, List.append_assoc]
    rfl
  · intro c hc
    obtain ⟨d, _, hc⟩ := List.mem_flatMap.mp hc
    exact CodePoint.isPlainAscii_iff.mp (List.all_eq_true.mp d.isPlainAscii_asAscii c hc)

/-- A field whose tag is for a quote, a line feed and a letter that is not ASCII. -/
def quotedField : Field := ⟨"A", "A", "a\"\nß", true⟩

theorem quoted_holds_source : quotedField.tag.isEncodable ∧ IsRawString quotedField.goTag ∧
    quotedField.goTag = "`json:\"a\\\"\\n\\u00df\"`" := by
  have h : quotedField.tag.isEncodable := by decide
  exact ⟨h, (tag_holds_source h).2.1.mpr (by decide), by decide⟩

/-- A document whose identifier has a backtick. -/
def ticked : Text :=
  "\x7b\"@graph\": [\x7b\"@id\": \"schema:A\", \"@type\": \"rdfs:Class\"\x7d, " ++
  "\x7b\"@id\": \"schema:b`c\", \"@type\": \"rdf:Property\", " ++
  "\"schema:domainIncludes\": \x7b\"@id\": \"schema:A\"\x7d\x7d]\x7d"

theorem ticked_no_rawString : ∃ r, (Resolved.load (.text ticked) false false).result = .ok r ∧
    ∃ s ∈ Struct.all false r.ontology r.children, ∃ f ∈ s.fields,
      f.tag = "schema:b`c" ∧ f.tag.isEncodable ∧ ¬IsRawString f.goTag := by
  have hstructs : (Resolved.load (.text ticked) false false).result.toOption.map
      (fun r ↦ (Struct.all false r.ontology r.children).flatMap Struct.childFields) =
        some [Struct.childField false "schema:b`c"] := by decide +kernel
  obtain ⟨r, hr, hfields⟩ := Logged.exists_of_map_eq_some hstructs
  have hf : Struct.childField false "schema:b`c" ∈
      (Struct.all false r.ontology r.children).flatMap Struct.childFields :=
    hfields ▸ List.mem_singleton_self _
  obtain ⟨s, hs, hf⟩ := List.mem_flatMap.mp hf
  refine ⟨r, hr, s, hs, _, (List.mem_filter.mp hf).1, rfl, by decide, ?_⟩
  rw [isRawString_goTag]
  exact not_not_intro (by decide)

end GoFile

end OntologyStructs
