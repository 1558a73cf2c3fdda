import Mathlib.Data.List.Forall2
import OntologyStructs.Document.Source
import OntologyStructs.Proofs.Checked
import OntologyStructs.Proofs.Value

namespace OntologyStructs

def Complaint.misshapen? : Complaint → Option Misshapen
  | misshapen m => some m
  | _ => none

def Issue.misshapens (is : List Issue) : List Misshapen := is.filterMap fun i ↦ i.complaint.misshapen?

theorem Issue.misshapens_append (is js : List Issue) :
    misshapens (is ++ js) = misshapens is ++ misshapens js := List.filterMap_append

def ValueKind.misfits (parts : List (ValueKind × Json)) : List Misshapen :=
  parts.filterMap fun (kind, v) ↦ if kind.fits v then none else some ⟨kind, v⟩

theorem Document.firstMisshapen_eq (is : List Issue) :
    (firstMisshapen is).map (·.2) = (Issue.misshapens is).head? := by
  induction is with
  | nil => rfl
  | cons i is ih =>
    obtain ⟨place, complaint⟩ := i
    cases complaint with
    | misshapen m => rfl
    | _ => exact ih

namespace Checked

variable {α : Type} {x : Checked α} {s : Selector}

def misshapens (x : Checked α) : List Misshapen := Issue.misshapens x.issues

@[simp] theorem misshapens_below : (x.below s).misshapens = x.misshapens := by
  rw [misshapens, issues_below, Issue.misshapens, List.filterMap_map]
  rfl

end Checked

namespace ValueKind

variable {α : Type} {kind : ValueKind} {read : Json → Except Misshapen α}

theorem ReadBy.exists_ok (h : kind.ReadBy read) {v : Json} : (∃ a, read v = .ok a) ↔ kind.fits v := by
  rcases h v with ⟨hfits, hok⟩ | ⟨hfits, herror⟩
  · exact iff_of_true hok hfits
  · simp [hfits, herror]

theorem ReadBy.misshapens (h : kind.ReadBy read) (v : Json) :
    Checked.misshapens ((read v).mapError fun m ↦ [(⟨[], .misshapen m⟩ : Issue)]) =
      misfits [(kind, v)] := by
  rcases h v with ⟨hfits, a, ha⟩ | ⟨hfits, herror⟩
  · simp only [ha, misfits, List.filterMap_cons, hfits]
    rfl
  · simp only [herror, misfits, List.filterMap_cons, hfits]
    rfl

theorem misfits_append (ps qs : List (ValueKind × Json)) :
    misfits (ps ++ qs) = misfits ps ++ misfits qs := List.filterMap_append

theorem misfits_eq_nil {ps : List (ValueKind × Json)} : misfits ps = [] ↔ ∀ p ∈ ps, p.1.fits p.2 := by
  simp [misfits, List.filterMap_eq_nil_iff]

end ValueKind

namespace Node

variable {e e' : Json} {key : Text}

/-- An entry of a document. Its other members, relations among them, may be anything. -/
structure IsEntry (e : Json) : Prop where
  isObject : ∃ members, e = .object members
  id : ∃ t, e.get? idKey = some (.text t)
  types : ∃ v, e.get? typesKey = some v ∧ ValueKind.typeSet.fits v
  comment : ∀ v, e.get? commentKey = some v → ValueKind.langText.fits v
  label : ∀ v, e.get? labelKey = some v → ValueKind.langText.fits v

/-- What an entry has of the values that may be misshapen, in the order in which they are checked. -/
def parts (e : Json) : List (ValueKind × Json) :=
  [(ValueKind.typeSet, typesKey), (.langText, commentKey), (.langText, labelKey)].flatMap
    fun (kind, key) ↦ (e.get? key).toList.map fun v ↦ (kind, v)

theorem readId_eq_ok {id : Text} : readId e = .ok id ↔ e.get? idKey = some (.text id) := by
  rw [readId, Checked.below_eq_ok]
  cases e.get? idKey with
  | none => exact iff_of_false nofun nofun
  | some v =>
    cases v with
    | text t => simp
    | _ => exact iff_of_false nofun nofun

theorem misshapens_readId : (readId e).misshapens = [] := by
  rw [readId, Checked.misshapens_below]
  cases e.get? idKey with
  | none => rfl
  | some v => cases v <;> rfl

theorem readTypes_eq_ok {s : TypeSet} :
    readTypes e = .ok s ↔ ∃ v, e.get? typesKey = some v ∧ TypeSet.read v = .ok s := by
  rw [readTypes, Checked.below_eq_ok]
  cases e.get? typesKey with
  | none => exact iff_of_false nofun nofun
  | some v => simp only [mapError_eq_ok, Option.some.injEq, exists_eq_left']

theorem readTypes_ok : (∃ s, readTypes e = .ok s) ↔
    ∃ v, e.get? typesKey = some v ∧ ValueKind.typeSet.fits v := by
  simp only [readTypes_eq_ok]
  rw [exists_comm]
  simp only [exists_and_left, TypeSet.readBy.exists_ok]

theorem misshapens_readTypes : (readTypes e).misshapens =
    ValueKind.misfits ((e.get? typesKey).toList.map fun v ↦ (.typeSet, v)) := by
  rw [readTypes, Checked.misshapens_below]
  cases e.get? typesKey with
  | none => rfl
  | some v => exact TypeSet.readBy.misshapens v

theorem readText_eq_ok {t : LangText} :
    readText key e = .ok t ↔ LangText.read ((e.get? key).getD .null) = .ok t := by
  rw [readText, Checked.below_eq_ok, mapError_eq_ok]

theorem readText_ok : (∃ t, readText key e = .ok t) ↔
    ∀ v, e.get? key = some v → ValueKind.langText.fits v := by
  simp only [readText_eq_ok, LangText.readBy.exists_ok]
  cases e.get? key with
  | none => exact iff_of_true rfl nofun
  | some v => simp only [Option.getD_some, Option.some.injEq, forall_eq']

theorem misshapens_readText : (readText key e).misshapens =
    ValueKind.misfits ((e.get? key).toList.map fun v ↦ (.langText, v)) := by
  rw [readText, Checked.misshapens_below]
  cases e.get? key with
  | none => rfl
  | some v => exact LangText.readBy.misshapens v

section object

variable (members : List (Text × Json))

theorem read_object_ok : (∃ n, read (.object members) = .ok n) ↔
    (∃ id, readId (.object members) = .ok id) ∧ (∃ s, readTypes (.object members) = .ok s) ∧
      (∃ t, readText commentKey (.object members) = .ok t) ∧
      ∃ t, readText labelKey (.object members) = .ok t := by
  rw [read]
  cases readId (.object members) <;> cases readTypes (.object members) <;>
    cases readText commentKey (.object members) <;> cases readText labelKey (.object members) <;> simp

theorem issues_read_object : (read (.object members)).issues =
    (readId (.object members)).issues ++ (readTypes (.object members)).issues ++
      (readText commentKey (.object members)).issues ++ (readText labelKey (.object members)).issues := by
  rw [read]
  cases readId (.object members) <;> cases readTypes (.object members) <;>
    cases readText commentKey (.object members) <;> cases readText labelKey (.object members) <;> rfl

theorem misshapens_read_object : (read (.object members)).misshapens =
    (readId (.object members)).misshapens ++ (readTypes (.object members)).misshapens ++
      (readText commentKey (.object members)).misshapens ++
        (readText labelKey (.object members)).misshapens := by
  simp only [Checked.misshapens, issues_read_object, Issue.misshapens_append]

end object

theorem read_ok : (∃ n, read e = .ok n) ↔ IsEntry e := by
  constructor
  · intro h
    cases e with
    | object members =>
      obtain ⟨hid, htypes, hcomment, hlabel⟩ := (read_object_ok members).mp h
      exact ⟨⟨members, rfl⟩, hid.imp fun _ ↦ readId_eq_ok.mp, readTypes_ok.mp htypes,
        readText_ok.mp hcomment, readText_ok.mp hlabel⟩
    | _ => cases h.choose_spec
  · intro h
    obtain ⟨⟨members, rfl⟩, hid, htypes, hcomment, hlabel⟩ := h
    exact (read_object_ok members).mpr ⟨hid.imp fun _ ↦ readId_eq_ok.mpr, readTypes_ok.mpr htypes,
      readText_ok.mpr hcomment, readText_ok.mpr hlabel⟩

theorem misshapens_read (e : Json) : (read e).misshapens = ValueKind.misfits (parts e) := by
  cases e with
  | object members =>
    have hparts : parts (.object members) =
        ((Json.object members).get? typesKey).toList.map (fun v ↦ (.typeSet, v)) ++
          (((Json.object members).get? commentKey).toList.map (fun v ↦ (.langText, v)) ++
            (((Json.object members).get? labelKey).toList.map (fun v ↦ (.langText, v)) ++ [])) := rfl
    rw [hparts, List.append_nil, ValueKind.misfits_append, ValueKind.misfits_append,
      misshapens_read_object, misshapens_readId, misshapens_readTypes, misshapens_readText,
      misshapens_readText, List.nil_append, List.append_assoc]
  | _ => rfl

structure Alike (e e' : Json) : Prop where
  isObject : (∃ members, e = .object members) ↔ ∃ members, e' = .object members
  get? : ∀ key ∈ [idKey, typesKey, commentKey, labelKey], e.get? key = e'.get? key

theorem Alike.isEntry (h : Alike e e') (he : IsEntry e) : IsEntry e' where
  isObject := h.isObject.mp he.isObject
  id := h.get? idKey (by simp) ▸ he.id
  types := h.get? typesKey (by simp) ▸ he.types
  comment := h.get? commentKey (by simp) ▸ he.comment
  label := h.get? labelKey (by simp) ▸ he.label

theorem Alike.symm (h : Alike e e') : Alike e' e :=
  ⟨h.isObject.symm, fun key hkey ↦ (h.get? key hkey).symm⟩

theorem Alike.issues_read (h : Alike e e') : (read e).issues = (read e').issues := by
  by_cases he : ∃ members, e = .object members
  · obtain ⟨members', rfl⟩ := h.isObject.mp he
    obtain ⟨members, rfl⟩ := he
    simp only [issues_read_object, readId, readTypes, readText, h.get? idKey (by simp),
      h.get? typesKey (by simp), h.get? commentKey (by simp), h.get? labelKey (by simp)]
  · have hread : ∀ v : Json, (¬ ∃ members, v = .object members) →
        (read v).issues = [⟨[], .recordExpected .node⟩] := by
      intro v hv
      cases v with
      | object members => exact absurd ⟨members, rfl⟩ hv
      | _ => rfl
    rw [hread e he, hread e' (mt h.isObject.mpr he)]

end Node

namespace Document

variable {v w : Json}

/-- A document as it must be spelled; only the two members count. -/
structure IsDocument (v : Json) : Prop where
  isObject : ∃ members, v = .object members
  context : ∀ c, v.get? contextKey = some c → ∃ members, c = .object members
  graph : ∃ entries, v.get? graphKey = some (.list entries) ∧ ∀ e ∈ entries, Node.IsEntry e

/-- All values of a document that may be misshapen, in the order in which they are checked. -/
def parts (v : Json) : List (ValueKind × Json) :=
  match v.get? graphKey with
  | some (.list entries) => entries.flatMap Node.parts
  | _ => []

theorem readNodes_ok {i : Nat} {entries : List Json} :
    (∃ ns, readNodes i entries = .ok ns) ↔ ∀ e ∈ entries, Node.IsEntry e := by
  induction entries generalizing i with
  | nil => exact iff_of_true ⟨[], rfl⟩ (List.forall_mem_nil _)
  | cons e entries ih =>
    have he := Node.read_ok (e := e)
    rw [← @Checked.exists_below_eq_ok _ (Node.read e) (.item i)] at he
    rw [List.forall_mem_cons, ← he, ← @ih (i + 1), readNodes]
    cases (Node.read e).below (.item i) <;> cases readNodes (i + 1) entries <;> simp

theorem issues_readNodes (i : Nat) (e : Json) (entries : List Json) :
    (readNodes i (e :: entries)).issues =
      ((Node.read e).below (.item i)).issues ++ (readNodes (i + 1) entries).issues := by
  rw [readNodes]
  cases (Node.read e).below (.item i) <;> cases readNodes (i + 1) entries <;> rfl

theorem misshapens_readNodes (i : Nat) (entries : List Json) :
    (readNodes i entries).misshapens = ValueKind.misfits (entries.flatMap Node.parts) := by
  induction entries generalizing i with
  | nil => rfl
  | cons e entries ih =>
    rw [List.flatMap_cons, ValueKind.misfits_append, Checked.misshapens, issues_readNodes,
      Issue.misshapens_append]
    exact congr (congrArg _ (Checked.misshapens_below.trans (Node.misshapens_read e))) (ih (i + 1))

theorem readContext_ok : (∃ c, readContext v = .ok c) ↔
    ∀ c, v.get? contextKey = some c → ∃ members, c = .object members := by
  rw [readContext, Checked.exists_below_eq_ok]
  cases v.get? contextKey with
  | none => exact iff_of_true ⟨[], rfl⟩ nofun
  | some c =>
    cases c with
    | object members => simp
    | _ => simp [Checked.reject]

theorem misshapens_readContext : (readContext v).misshapens = [] := by
  rw [readContext, Checked.misshapens_below]
  cases v.get? contextKey with
  | none => rfl
  | some c => cases c <;> rfl

theorem readGraph_ok : (∃ ns, readGraph v = .ok ns) ↔
    ∃ entries, v.get? graphKey = some (.list entries) ∧ ∀ e ∈ entries, Node.IsEntry e := by
  rw [readGraph, Checked.exists_below_eq_ok]
  cases v.get? graphKey with
  | none => exact iff_of_false nofun nofun
  | some g =>
    cases g with
    | list entries => simp [readNodes_ok]
    | _ => exact iff_of_false nofun nofun

theorem misshapens_readGraph : (readGraph v).misshapens = ValueKind.misfits (parts v) := by
  rw [readGraph, Checked.misshapens_below, parts]
  cases v.get? graphKey with
  | none => rfl
  | some g =>
    cases g with
    | list entries => exact misshapens_readNodes 0 entries
    | _ => rfl

theorem check_ok : (∃ d, check v = .ok d) ↔ IsDocument v := by
  have hobject (members : List (Text × Json)) : (∃ d, check (.object members) = .ok d) ↔
      (∃ c, readContext (.object members) = .ok c) ∧ ∃ ns, readGraph (.object members) = .ok ns := by
    rw [check]
    cases readContext (.object members) <;> cases readGraph (.object members) <;> simp
  constructor
  · intro h
    cases v with
    | object members =>
      obtain ⟨hcontext, hgraph⟩ := (hobject members).mp h
      exact ⟨⟨members, rfl⟩, readContext_ok.mp hcontext, readGraph_ok.mp hgraph⟩
    | _ => cases h.choose_spec
  · intro h
    obtain ⟨⟨members, rfl⟩, hcontext, hgraph⟩ := h
    exact (hobject members).mpr ⟨readContext_ok.mpr hcontext, readGraph_ok.mpr hgraph⟩

theorem issues_check_object (members : List (Text × Json)) : (check (.object members)).issues =
    (readContext (.object members)).issues ++ (readGraph (.object members)).issues := by
  rw [check]
  cases readContext (.object members) <;> cases readGraph (.object members) <;> rfl

theorem misshapens_check (v : Json) : (check v).misshapens = ValueKind.misfits (parts v) := by
  cases v with
  | object members =>
    rw [Checked.misshapens, issues_check_object, Issue.misshapens_append]
    exact congr (congrArg _ misshapens_readContext) misshapens_readGraph
  | _ => rfl

theorem result_ofJson_of_error {issues : List Issue} (h : check v = .error issues) :
    (ofJson v).result = .error (match (Issue.misshapens issues).head? with
      | some m => .misshapen m
      | none => .invalid issues) := by
  rw [ofJson, h, ← firstMisshapen_eq]
  cases hm : firstMisshapen issues <;> simp [hm]

theorem ofJson_eq_ok {d : Document} : (ofJson v).result = .ok d ↔ check v = .ok d := by
  cases hcheck : check v with
  | error issues => simp [result_ofJson_of_error hcheck]
  | ok d' =>
    rw [ofJson, hcheck]
    exact ⟨fun h ↦ congrArg _ (Except.ok.inj h), fun h ↦ congrArg _ (Except.ok.inj h)⟩

structure Alike (v w : Json) : Prop where
  isObject : (∃ members, v = .object members) ∧ ∃ members, w = .object members
  context : v.get? contextKey = w.get? contextKey
  graph : ∃ es es', v.get? graphKey = some (.list es) ∧ w.get? graphKey = some (.list es') ∧
    List.Forall₂ Node.Alike es es'

theorem Alike.symm (h : Alike v w) : Alike w v := by
  obtain ⟨es, es', hv, hw, hes⟩ := h.graph
  exact ⟨h.isObject.symm, h.context.symm, es', es, hw, hv, hes.flip.imp fun _ _ ↦ Node.Alike.symm⟩

theorem Alike.isDocument (h : Alike v w) (hv : IsDocument v) : IsDocument w := by
  obtain ⟨es, es', hes, hes', hsame⟩ := h.graph
  obtain ⟨entries, hentries, hall⟩ := hv.graph
  obtain rfl : es = entries := by
    rw [hes] at hentries
    injection hentries with hentries
    injection hentries
  refine ⟨h.isObject.2, h.context ▸ hv.context, es', hes', fun e' he' ↦ ?_⟩
  obtain ⟨i, hi, rfl⟩ := List.mem_iff_getElem.mp he'
  have hi' : i < es.length := hsame.length_eq ▸ hi
  exact (hsame.get hi' hi).isEntry (hall _ (List.getElem_mem hi'))

theorem issues_readNodes_alike {es es' : List Json} (h : List.Forall₂ Node.Alike es es') (i : Nat) :
    (readNodes i es).issues = (readNodes i es').issues := by
  induction h generalizing i with
  | nil => rfl
  | cons he _ ih =>
    rw [issues_readNodes, issues_readNodes, Checked.issues_below, Checked.issues_below,
      he.issues_read, ih]

theorem Alike.issues_check (h : Alike v w) : (check v).issues = (check w).issues := by
  obtain ⟨⟨ms, rfl⟩, ms', rfl⟩ := h.isObject
  obtain ⟨es, es', hes, hes', hsame⟩ := h.graph
  rw [issues_check_object, issues_check_object, readContext, readContext, h.context, readGraph,
    readGraph, hes, hes', Checked.issues_below, Checked.issues_below, Checked.issues_below,
    issues_readNodes_alike hsame]

/-- Reading a document tells apart what has the grammar of one and what has not. Of what has not, the
first misshapen value is reported, however much else is wrong before it or elsewhere, and only where
there is none the document as a whole. Nothing but the members that are checked matters. -/
theorem ofJson_grammar (v : Json) :
    ((∃ d, (ofJson v).result = .ok d) ↔ IsDocument v) ∧
    (∀ before kind value after, parts v = before ++ (kind, value) :: after →
      (∀ part ∈ before, part.1.fits part.2) → kind.fits value = false →
      (ofJson v).result = .error (.misshapen ⟨kind, value⟩)) ∧
    (¬ IsDocument v → (∀ part ∈ parts v, part.1.fits part.2) →
      ∃ issues, (ofJson v).result = .error (.invalid issues)) ∧
    ∀ w, Alike v w → ((ofJson w).result.map fun _ ↦ ()) = (ofJson v).result.map fun _ ↦ () := by
  have hok (v : Json) : (∃ d, (ofJson v).result = .ok d) ↔ IsDocument v := by
    simp only [ofJson_eq_ok, check_ok]
  refine ⟨hok v, ?_, ?_, ?_⟩
  · intro before kind value after hparts hbefore hvalue
    have hmisfits : ValueKind.misfits (parts v) = ⟨kind, value⟩ :: ValueKind.misfits after := by
      rw [hparts, ValueKind.misfits_append, ValueKind.misfits_eq_nil.mpr hbefore]
      simp [ValueKind.misfits, hvalue]
    have hmisshapens := (misshapens_check v).trans hmisfits
    cases hcheck : check v with
    | ok d => simp [hcheck, Checked.misshapens, Issue.misshapens, Checked.issues] at hmisshapens
    | error issues =>
      rw [hcheck] at hmisshapens
      rw [result_ofJson_of_error hcheck, show Issue.misshapens issues = _ from hmisshapens]
      rfl
  · intro hv hparts
    cases hcheck : check v with
    | ok d => exact absurd (check_ok.mp ⟨d, hcheck⟩) hv
    | error issues =>
      have hmisshapens := (misshapens_check v).trans (ValueKind.misfits_eq_nil.mpr hparts)
      rw [hcheck] at hmisshapens
      refine ⟨issues, ?_⟩
      rw [result_ofJson_of_error hcheck, show Issue.misshapens issues = _ from hmisshapens]
      rfl
  · intro w hw
    by_cases hv : IsDocument v
    · obtain ⟨d, hd⟩ := (hok v).mpr hv
      obtain ⟨d', hd'⟩ := (hok w).mpr (hw.isDocument hv)
      rw [hd, hd']
      rfl
    · -- not only whether something is wrong is the same, but all that is wrong
      have hissues := hw.issues_check
      cases hcheck : check v with
      | ok d => exact absurd (check_ok.mp ⟨d, hcheck⟩) hv
      | error issues =>
        cases hcheck' : check w with
        | ok d => exact absurd (hw.symm.isDocument (check_ok.mp ⟨d, hcheck'⟩)) hv
        | error issues' =>
          rw [hcheck, hcheck'] at hissues
          obtain rfl : issues = issues' := hissues
          rw [result_ofJson_of_error hcheck, result_ofJson_of_error hcheck']

/-- A document with more wrong in it than a label: there is no use for the context, an entry before it
has no identifier, and one behind it has no types. -/
def mislabelled : Json := .object [
  (contextKey, .int 3),
  (graphKey, .list [
    .object [(Node.typesKey, .text "rdfs:Class")],
    .object [(Node.idKey, .text "name"), (Node.typesKey, .list [.text "rdf:Property"]),
      (Node.labelKey, .bool true)],
    .object [(Node.idKey, .text "age"), (Node.typesKey, .list [])]])]

theorem mislabelled_reported : parts mislabelled =
      [(.typeSet, .text "rdfs:Class"), (.typeSet, .list [.text "rdf:Property"]),
        (.langText, .bool true), (.typeSet, .list [])] ∧
    (ofJson mislabelled).result = .error (.misshapen ⟨.langText, .bool true⟩) :=
  ⟨rfl, (ofJson_grammar mislabelled).2.1 [(.typeSet, .text "rdfs:Class"),
    (.typeSet, .list [.text "rdf:Property"])] .langText (.bool true) [(.typeSet, .list [])] rfl
    (by simp [ValueKind.fits, Json.isText, Json.text?]) rfl⟩

end Document

end OntologyStructs
