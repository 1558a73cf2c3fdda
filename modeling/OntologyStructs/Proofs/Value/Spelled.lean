import OntologyStructs.Proofs.Value

namespace OntologyStructs

namespace TypeSet

/-- One type may stand by itself; any number of them, one at least, stand in a list. -/
inductive SpelledBy : TypeSet → Json → Prop
  | alone (t : Text) : SpelledBy ⟨t, []⟩ (.text t)
  | listed (t : Text) (ts : List Text) : SpelledBy ⟨t, ts⟩ (.list ((t :: ts).map .text))

theorem read_eq_ok {v : Json} {s : TypeSet} : read v = .ok s ↔ s.SpelledBy v := by
  constructor
  · intro h
    rw [read] at h
    cases ht : v.text? with
    | some t =>
      obtain rfl := Json.text?_eq_some.mp ht
      cases h
      exact .alone t
    | none =>
      cases hts : v.texts? with
      | none =>
        rw [ht, hts] at h
        cases h
      | some ts =>
        obtain rfl := Json.texts?_eq_some.mp hts
        rw [ht, hts] at h
        cases ts with
        | nil => cases h
        | cons t ts =>
          cases h
          exact .listed t ts
  · rintro (t | ⟨t, ts⟩)
    · rfl
    · rw [read, Json.texts?_eq_some.mpr rfl]
      rfl

theorem spelledBy_toJson (s : TypeSet) : s.SpelledBy s.toJson := by
  obtain ⟨t, ts⟩ := s
  cases ts with
  | nil => exact .alone t
  | cons u us => exact .listed t (u :: us)

theorem read_toJson (s : TypeSet) : read s.toJson = .ok s := read_eq_ok.mpr s.spelledBy_toJson

theorem toJson_eq_text (s : TypeSet) : (∃ t, s.toJson = .text t) ↔ s.size = 1 := by
  obtain ⟨t, ts⟩ := s
  cases ts with
  | nil => exact iff_of_true ⟨t, rfl⟩ rfl
  | cons u us => exact iff_of_false nofun nofun

end TypeSet

namespace LangText

/-- What a value says as a text: null is the empty one. -/
inductive Says : Json → Text → Prop
  | text (t : Text) : Says (.text t) t
  | null : Says .null []

/-- A text may stand by itself, or in an object, where it may have a language. -/
inductive SpelledBy : LangText → Json → Prop
  | alone {v : Json} {t : Text} (ht : Says v t) : SpelledBy ⟨t, []⟩ v
  | value {members : List (Text × Json)} {v : Json} {t : Text} (ht : Says v t)
      (hvalue : (Json.object members).get? "@value" = some v)
      (hlanguage : (Json.object members).get? "@language" = none) : SpelledBy ⟨t, []⟩ (.object members)
  | both {members : List (Text × Json)} {v w : Json} {t l : Text} (ht : Says v t) (hl : Says w l)
      (hvalue : (Json.object members).get? "@value" = some v)
      (hlanguage : (Json.object members).get? "@language" = some w) : SpelledBy ⟨t, l⟩ (.object members)

theorem textOrNull?_eq_some {v : Json} {t : Text} : textOrNull? v = some t ↔ Says v t := by
  constructor
  · intro h
    cases v with
    | text u =>
      cases h
      exact .text _
    | null =>
      cases h
      exact .null
    | _ => cases h
  · rintro (_ | _) <;> rfl

theorem ofObject?_eq_some {members : List (Text × Json)} {t : LangText} :
    ofObject? (.object members) = some t ↔ ∃ v, (Json.object members).get? "@value" = some v ∧
      Says v t.value ∧ Says (((Json.object members).get? "@language").getD .null) t.language := by
  simp only [ofObject?, Option.bind_eq_bind, Option.bind_eq_some_iff, textOrNull?_eq_some,
    Option.pure_def, Option.some.injEq]
  constructor
  · rintro ⟨v, hv, value, hvalue, language, hlanguage, rfl⟩
    exact ⟨v, hv, hvalue, hlanguage⟩
  · rintro ⟨v, hv, hvalue, hlanguage⟩
    exact ⟨v, hv, _, hvalue, _, hlanguage, rfl⟩

theorem read_object {members : List (Text × Json)} {t : LangText} :
    read (.object members) = .ok t ↔ ofObject? (.object members) = some t := by
  have hnone : textOrNull? (.object members) = none := rfl
  rw [read, hnone]
  cases ofObject? (.object members) with
  | none => simp only [reduceCtorEq]
  | some u => simp only [Except.ok.injEq, Option.some.injEq]

theorem read_eq_ok {v : Json} {t : LangText} : read v = .ok t ↔ t.SpelledBy v := by
  constructor
  · intro h
    cases v with
    | text u =>
      cases h
      exact .alone (.text u)
    | null =>
      cases h
      exact .alone .null
    | object members =>
      obtain ⟨v, hv, hvalue, hlanguage⟩ := ofObject?_eq_some.mp (read_object.mp h)
      obtain ⟨value, language⟩ := t
      cases hw : (Json.object members).get? "@language" with
      | none =>
        rw [hw] at hlanguage
        cases hlanguage
        exact .value hvalue hv hw
      | some w =>
        rw [hw] at hlanguage
        exact .both hvalue hlanguage hv hw
    | _ => cases h
  · rintro (⟨_ | _⟩ | ⟨ht, hvalue, hlanguage⟩ | ⟨ht, hl, hvalue, hlanguage⟩)
    · rfl
    · rfl
    · rw [read_object, ofObject?_eq_some, hlanguage]
      exact ⟨_, hvalue, ht, .null⟩
    · rw [read_object, ofObject?_eq_some, hlanguage]
      exact ⟨_, hvalue, ht, hl⟩

theorem spelledBy_toJson (t : LangText) : t.SpelledBy t.toJson := by
  obtain ⟨value, language⟩ := t
  cases language with
  | nil => exact .alone (.text value)
  | cons c r => exact .both (.text value) (.text (c :: r)) rfl rfl

theorem read_toJson (t : LangText) : read t.toJson = .ok t := read_eq_ok.mpr t.spelledBy_toJson

theorem toJson_eq_text (t : LangText) : (∃ u, t.toJson = .text u) ↔ t.language = [] := by
  obtain ⟨value, language⟩ := t
  cases language with
  | nil => exact iff_of_true ⟨value, rfl⟩ rfl
  | cons c r => exact iff_of_false nofun nofun

end LangText

namespace Reference

inductive Names : Json → Text → Prop
  | id {members : List (Text × Json)} {id : Text}
      (h : (Json.object members).get? "@id" = some (.text id)) : Names (.object members) id

/-- An object names one identifier, a list of objects or of texts any number of them. The empty list is
one of objects. -/
inductive SpelledBy : Reference → Json → Prop
  | object {v : Json} {id : Text} (h : Names v id) : SpelledBy ⟨.object, [id]⟩ v
  | objects {items : List Json} {ids : List Text} (h : List.Forall₂ Names items ids) :
      SpelledBy ⟨.objects, ids⟩ (.list items)
  | ids {ids : List Text} (h : ids ≠ []) : SpelledBy ⟨.ids, ids⟩ (.list (ids.map .text))

theorem objectId?_eq_some {v : Json} {id : Text} : objectId? v = some id ↔ Names v id := by
  constructor
  · intro h
    obtain ⟨w, hw, hid⟩ := Option.bind_eq_some_iff.mp h
    obtain rfl := Json.text?_eq_some.mp hid
    cases v with
    | object members => exact .id hw
    | _ => cases hw
  · rintro ⟨h⟩
    exact Option.bind_eq_some_iff.mpr ⟨_, h, rfl⟩

theorem objectIds?_eq_some {items : List Json} {ids : List Text} :
    objectIds? (.list items) = some ids ↔ List.Forall₂ Names items ids := by
  simp only [objectIds?, mapM_eq_some, objectId?_eq_some]

theorem objectIds?_texts {ids : List Text} (h : ids ≠ []) :
    objectIds? (.list (ids.map .text)) = none := by
  obtain ⟨id, ids, rfl⟩ := List.exists_cons_of_ne_nil h
  rw [objectIds?, List.map_cons, List.mapM_cons]
  rfl

theorem read_eq_ok {v : Json} {r : Reference} : read v = .ok r ↔ r.SpelledBy v := by
  constructor
  · intro h
    rw [read] at h
    cases hid : objectId? v with
    | some id =>
      rw [hid] at h
      cases h
      exact .object (objectId?_eq_some.mp hid)
    | none =>
      cases hids : objectIds? v with
      | some ids =>
        rw [hid, hids] at h
        cases h
        cases v with
        | list items => exact .objects (objectIds?_eq_some.mp hids)
        | _ => cases hids
      | none =>
        cases hts : v.texts? with
        | none =>
          rw [hid, hids, hts] at h
          cases h
        | some ids =>
          rw [hid, hids, hts] at h
          cases h
          obtain rfl := Json.texts?_eq_some.mp hts
          refine .ids fun hnil ↦ ?_
          subst hnil
          cases hids
  · rintro (h | h | h)
    · rw [read, objectId?_eq_some.mpr h]
    · have hid (items : List Json) : objectId? (.list items) = none := rfl
      rw [read, hid, objectIds?_eq_some.mpr h]
    · have hid (items : List Json) : objectId? (.list items) = none := rfl
      rw [read, hid, objectIds?_texts h, Json.texts?_eq_some.mpr rfl]

/-- One identifier may be spelled in three ways. -/
theorem ids_of_names {v : Json} {id : Text} (h : Names v id) :
    ∀ u ∈ [v, .list [v], .list [.text id]], (read u).map ids = .ok [id] := by
  have hobject := read_eq_ok.mpr (.object h)
  have hobjects := read_eq_ok.mpr (.objects (.cons h .nil))
  have hids := read_eq_ok.mpr (.ids (List.cons_ne_nil id []))
  rw [List.map_singleton] at hids
  simp only [List.forall_mem_cons, hobject, hobjects, hids]
  exact ⟨rfl, rfl, rfl, List.forall_mem_nil _⟩

end Reference

/-- Values are read as they were written. So to read and write once more changes nothing, and what is
written tells apart exactly what is read. -/
structure WritesBack {α : Type} (read : Json → Except Misshapen α) (write : α → Json) : Prop where
  back : ∀ a, read (write a) = .ok a
  again : ∀ v, ((read v).map write).bind (fun w ↦ (read w).map write) = (read v).map write
  apart : ∀ v w, read v = read w ↔ (read v).map write = (read w).map write

theorem WritesBack.of_back {α : Type} {read : Json → Except Misshapen α} {write : α → Json}
    (h : ∀ a, read (write a) = .ok a) : WritesBack read write where
  back := h
  again v := by
    cases read v with
    | error m => rfl
    | ok a => exact congrArg (Except.map write) (h a)
  apart v w := by
    refine ⟨congrArg _, fun heq ↦ ?_⟩
    cases hv : read v <;> cases hw : read w <;> rw [hv, hw] at heq
    next => exact congrArg Except.error (Except.error.inj heq)
    next => cases heq
    next => cases heq
    next a b => rw [← h a, ← h b, Except.ok.inj heq]

/-- Each kind of value is read from its spellings and from nothing else, one identifier alike from all
three, and is written in the shortest spelling, from which it is read again. -/
theorem values_spelled :
    (∀ v s, TypeSet.read v = .ok s ↔ s.SpelledBy v) ∧
    (∀ v t, LangText.read v = .ok t ↔ t.SpelledBy v) ∧
    (∀ v r, Reference.read v = .ok r ↔ r.SpelledBy v) ∧
    (∀ v id, Reference.Names v id → ∀ u ∈ [v, .list [v], .list [.text id]],
      (Reference.read u).map Reference.ids = .ok [id]) ∧
    WritesBack TypeSet.read TypeSet.toJson ∧
    (∀ s : TypeSet, (∃ t, s.toJson = .text t) ↔ s.size = 1) ∧
    WritesBack LangText.read LangText.toJson ∧
    ∀ t : LangText, (∃ u, t.toJson = .text u) ↔ t.language = [] :=
  ⟨fun _ _ ↦ TypeSet.read_eq_ok, fun _ _ ↦ LangText.read_eq_ok, fun _ _ ↦ Reference.read_eq_ok,
    fun _ _ ↦ Reference.ids_of_names, .of_back TypeSet.read_toJson, TypeSet.toJson_eq_text,
    .of_back LangText.read_toJson, LangText.toJson_eq_text⟩

/-- An object with more than an identifier names what the identifier alone names in a list. -/
theorem labelled_spelled :
    (Reference.read (.object [("label", .text "b"), ("@id", .text "a")])).map Reference.ids =
        .ok ["a"] ∧
      (Reference.read (.list [.text "a"])).map Reference.ids = .ok ["a"] := by
  have h := values_spelled.2.2.2.1 (.object [("label", .text "b"), ("@id", .text "a")]) "a" (.id rfl)
  exact ⟨h _ (by simp), h _ (by simp)⟩

end OntologyStructs
