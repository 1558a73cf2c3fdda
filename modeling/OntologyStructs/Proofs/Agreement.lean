import Mathlib.Data.List.Forall2
import OntologyStructs.Generation
import OntologyStructs.Proofs.Struct

namespace OntologyStructs

/-- Two values of a relation that are both absent, or name the same identifiers in whatever form. -/
inductive Reference.Alike : Option Json → Option Json → Prop
  | absent : Alike none none
  | named {v w : Json} {a b : Reference} (hv : read v = .ok a) (hw : read w = .ok b)
      (hids : a.ids = b.ids) : Alike (some v) (some w)

instance : (v w : Option Json) → Decidable (Reference.Alike v w)
  | none, none => isTrue .absent
  | none, some _ => isFalse nofun
  | some _, none => isFalse nofun
  | some v, some w =>
    match hv : Reference.read v, hw : Reference.read w with
    | .ok a, .ok b =>
      if hids : a.ids = b.ids then isTrue (.named hv hw hids)
      else isFalse fun h ↦ by cases h; simp_all
    | .error _, _ => isFalse fun h ↦ by cases h; simp_all
    | .ok _, .error _ => isFalse fun h ↦ by cases h; simp_all

/-- Entries that are the same as far as children and structs go. Types, labels, languages, inverses,
what an entry is superseded by and how references are spelled are left open. -/
structure Node.Agrees (n m : Node) : Prop where
  id : n.id = m.id
  comment : n.comment.value = m.comment.value
  superseded : n.isSuperseded = m.isSuperseded
  relation : ∀ r ∈ [Relation.subPropertyOf, .domainIncludes, .rangeIncludes, .subClassOf],
    Reference.Alike (n.relation r) (m.relation r)

instance (n m : Node) : Decidable (n.Agrees m) :=
  decidable_of_iff (n.id = m.id ∧ n.comment.value = m.comment.value ∧
    n.isSuperseded = m.isSuperseded ∧
    ∀ r ∈ [Relation.subPropertyOf, .domainIncludes, .rangeIncludes, .subClassOf],
      Reference.Alike (n.relation r) (m.relation r))
    ⟨fun h ↦ ⟨h.1, h.2.1, h.2.2.1, h.2.2.2⟩, fun h ↦ ⟨h.id, h.comment, h.superseded, h.relation⟩⟩

/-- What is made of each of some entries is the same for entries that agree with them. -/
theorem Node.Agrees.map_eq {α : Type} {ns ms : List Node} (h : List.Forall₂ Node.Agrees ns ms)
    {f g : Node → α} (hfg : ∀ n m, n.Agrees m → f n = g m) : ns.map f = ms.map g := by
  rw [← List.forall₂_eq_eq_eq, List.forall₂_map_left_iff, List.forall₂_map_right_iff]
  exact h.imp hfg

namespace Ontology

def Agrees (o o' : Ontology) : Prop := List.Forall₂ Node.Agrees o.nodes o'.nodes

namespace Agrees

variable {o o' : Ontology} {n m : Node} {r : Relation}

section follow

variable (hindex : o.index = o'.index)

include hindex

theorem position?_eq : o.position? = o'.position? := by
  funext id
  rw [position?, position?, hindex]

theorem knows_eq : o.knows = o'.knows := by
  funext id
  rw [knows, knows, position?_eq hindex]

/-- What a relation leads to depends on nothing but the identifiers that it names. -/
theorem follow_eq (hn : n.Agrees m)
    (hr : r ∈ [Relation.subPropertyOf, .domainIncludes, .rangeIncludes, .subClassOf])
    (attach : Text → Nat → ResolutionStep) : o.follow n r attach = o'.follow m r attach := by
  have hrelation := hn.relation r hr
  rw [follow, follow, position?_eq hindex, knows_eq hindex, hn.id]
  generalize n.relation r = v, m.relation r = w at hrelation
  cases hrelation with
  | absent => rfl
  | named hv hw hids => simp only [hv, hw, hids]

theorem joinTargets_eq (leaveOut : Bool) (hn : n.Agrees m)
    (hr : r ∈ [Relation.subPropertyOf, .domainIncludes, .rangeIncludes, .subClassOf]) :
    o.joinTargets leaveOut n r = o'.joinTargets leaveOut m r := by
  have hthere : (n.relation r).isSome = (m.relation r).isSome := by
    have hrelation := hn.relation r hr
    generalize n.relation r = v, m.relation r = w at hrelation
    cases hrelation <;> rfl
  rw [joinTargets, joinTargets, follow_eq hindex hn hr, hn.id, hn.superseded, hthere]

theorem directPlanOf_eq (leaveOut : Bool) (hn : n.Agrees m) :
    o.directPlanOf leaveOut n = o'.directPlanOf leaveOut m := by
  funext p
  rw [directPlanOf, directPlanOf, joinTargets_eq hindex leaveOut hn (by decide),
    joinTargets_eq hindex leaveOut hn (by decide), follow_eq hindex hn (by decide)]

theorem superclasses_eq (hn : n.Agrees m) : o.superclasses n = o'.superclasses m := by
  have hrelation := hn.relation .subClassOf (by decide)
  rw [superclasses, superclasses, position?_eq hindex]
  generalize n.relation .subClassOf = v, m.relation .subClassOf = w at hrelation
  cases hrelation with
  | absent => rfl
  | named hv hw hids => simp only [hv, hw, hids, Except.map]

end follow

variable (h : o.Agrees o') (leaveOut : Bool)

include h

theorem index_eq : o.index = o'.index := by
  rw [o.index_eq, o'.index_eq, Node.Agrees.map_eq h fun _ _ hn ↦ hn.id]

theorem directPlan_eq : o.directPlan leaveOut = o'.directPlan leaveOut := by
  have hplans := Node.Agrees.map_eq h fun _ _ ↦ directPlanOf_eq h.index_eq leaveOut
  have hplan (o : Ontology) : o.directPlan leaveOut =
      .concat ((o.nodes.map (o.directPlanOf leaveOut)).zipIdx.map fun e ↦ e.1 e.2) := by
    rw [List.zipIdx_map, List.map_map]
    rfl
  rw [hplan, hplan, hplans]

theorem inheritancePlan_eq : o.inheritancePlan = o'.inheritancePlan := by
  have hsuperclasses := Node.Agrees.map_eq h fun _ _ ↦ superclasses_eq h.index_eq
  have horder : o.inheritanceOrder = o'.inheritanceOrder := by
    have hmap (o : Ontology) : o.nodes.mapM o.superclasses = (o.nodes.map o.superclasses).mapM id := by
      rw [List.mapM_map]
      rfl
    rw [inheritanceOrder, inheritanceOrder, hmap, hmap, hsuperclasses]
  have hplan : o.inheritPlanOf = o'.inheritPlanOf := by
    funext p
    let attach := fun (_ : Text) (q : Nat) ↦ ResolutionStep.inherit p q
    have hfollow := Node.Agrees.map_eq h (f := fun n ↦ o.follow n .subClassOf attach)
      (g := fun n ↦ o'.follow n .subClassOf attach)
      fun _ _ hn ↦ follow_eq h.index_eq hn (by decide) attach
    have hget (o : Ontology) : o.inheritPlanOf p =
        ((o.nodes.map fun n ↦ o.follow n .subClassOf attach)[p]?).getD .empty := by
      rw [inheritPlanOf, List.getElem?_map]
      cases o.nodes[p]? <;> rfl
    rw [hget, hget, hfollow]
  rw [inheritancePlan, inheritancePlan, horder, hplan]

theorem wellShaped : o.WellShaped := by
  intro n hn r hr
  obtain ⟨i, hi, rfl⟩ := List.mem_iff_getElem.mp hn
  have hi' : i < o'.nodes.length := h.length_eq ▸ hi
  have hm : o.nodes[i].Agrees o'.nodes[i] := h.get hi hi'
  have hrelation := hm.relation r hr
  rw [Node.misreading?]
  generalize o.nodes[i].relation r = v, o'.nodes[i].relation r = w at hrelation
  cases hrelation with
  | absent => rfl
  | named hv _ _ => simp only [hv]

/-- Ontologies that agree are resolved, to the same children and with the same counters. -/
theorem resolve_eq : ∃ r r', (o.resolve leaveOut).result = .ok r ∧
    (o'.resolve leaveOut).result = .ok r' ∧ r.children = r'.children ∧ r.counters = r'.counters := by
  have hshaped := h.wellShaped
  have hdirect := h.directPlan_eq leaveOut
  have hinheritance := h.inheritancePlan_eq
  have hprogress : o.directProgress leaveOut = o'.directProgress leaveOut := by
    have hstart : (Session.start o leaveOut).progress = (Session.start o' leaveOut).progress := by
      rw [Session.start, Session.start, h.length_eq]
    rw [directProgress_eq, directProgress_eq, hstart, hdirect]
  refine ⟨_, _, resolve_eq_ok.mpr ⟨hshaped.direct, hshaped.inheritance, rfl⟩,
    resolve_eq_ok.mpr ⟨hdirect ▸ hshaped.direct, hinheritance ▸ hshaped.inheritance, rfl⟩, ?_, ?_⟩
  · rw [hprogress, hinheritance]
  · rw [hprogress, hinheritance]

theorem structs_eq (keep : Bool) (c : Children) : Struct.all keep o c = Struct.all keep o' c := by
  have hindexed : o.indexed = o'.indexed := by rw [indexed, indexed, h.index_eq]
  rw [Struct.all, Struct.all, hindexed]
  refine List.filterMap_congr fun p _ ↦ ?_
  rw [← List.getElem?_map, ← List.getElem?_map]
  congr 1
  refine Node.Agrees.map_eq h fun n m hn ↦ ?_
  rw [Struct.ofNode, Struct.ofNode, hn.id, hn.comment]

end Agrees

/-- Of documents that agree both are refused for the same repeat, or neither is. -/
theorem build_agrees {d d' : Document} (h : List.Forall₂ Node.Agrees d.nodes d'.nodes)
    (strict : Bool) :
    (∃ e, (build strict d).result = .error e ∧ (build strict d').result = .error e) ∨
      (build strict d).result = .ok (ofDocument d) ∧
        (build strict d').result = .ok (ofDocument d') := by
  have hindex : (ofDocument d).index = (ofDocument d').index := Agrees.index_eq h
  cases strict with
  | false => exact .inr ⟨rfl, rfl⟩
  | true =>
    unfold build
    simp only [hindex]
    cases (ofDocument d').index.repeats with
    | nil => exact .inr ⟨rfl, rfl⟩
    | cons r _ => exact .inl ⟨⟨r.id⟩, rfl, rfl⟩

end Ontology

namespace Resolved

/-- Of a document only identifiers, comments, whether entries are superseded and what the relations
between them name matters: where these agree, loading fails for the same repeat, or comes to the same
children, counters and file. -/
theorem load_agrees {source source' : Source} {d d' : Document}
    (hd : (Document.read source).result = .ok d) (hd' : (Document.read source').result = .ok d')
    (h : List.Forall₂ Node.Agrees d.nodes d'.nodes) (strict leaveOut : Bool) :
    (∃ e, (load source strict leaveOut).result = .error (.duplicate e) ∧
      (load source' strict leaveOut).result = .error (.duplicate e)) ∨
    ∃ r r', (load source strict leaveOut).result = .ok r ∧
      (load source' strict leaveOut).result = .ok r' ∧
      r.children = r'.children ∧ r.counters = r'.counters ∧
      ∀ keep package, (Generated.ofResolved keep package r).structs =
          (Generated.ofResolved keep package r').structs ∧
        (Generated.ofResolved keep package r).source =
          (Generated.ofResolved keep package r').source := by
  have hagrees : (Ontology.ofDocument d).Agrees (Ontology.ofDocument d') := h
  rw [result_load hd, result_load hd']
  rcases Ontology.build_agrees h strict with ⟨e, he, he'⟩ | ⟨ho, ho'⟩
  · rw [he, he']
    exact .inl ⟨e, rfl, rfl⟩
  · rw [ho, ho']
    obtain ⟨r, r', hr, hr', hchildren, hcounters⟩ := hagrees.resolve_eq leaveOut
    refine .inr ⟨r, r', mapError_eq_ok.mpr hr, mapError_eq_ok.mpr hr', hchildren, hcounters, ?_⟩
    intro keep package
    have hstructs : Struct.all keep r.ontology r.children =
        Struct.all keep r'.ontology r'.children := by
      rw [Ontology.ontology_of_resolve hr, Ontology.ontology_of_resolve hr', hchildren,
        hagrees.structs_eq]
    exact ⟨hstructs, congrArg (GoFile.render package) hstructs⟩

/-- A document of a person, and of what relates persons. -/
def acquaintance : Text :=
  "\x7b\"@context\": \x7b\"schema\": \"https://schema.org/\"\x7d, \"@graph\": [" ++
  "\x7b\"@id\": \"Person\", \"@type\": \"rdfs:Class\", \"rdfs:comment\": \"Someone\", " ++
  "\"rdfs:subClassOf\": \x7b\"@id\": \"Thing\"\x7d\x7d, " ++
  "\x7b\"@id\": \"Thing\", \"@type\": \"rdfs:Class\"\x7d, " ++
  "\x7b\"@id\": \"knows\", \"@type\": \"rdf:Property\", " ++
  "\"schema:domainIncludes\": \x7b\"@id\": \"Thing\"\x7d, " ++
  "\"schema:rangeIncludes\": [\"Person\", \"Gone\"], " ++
  "\"schema:supersededBy\": \x7b\"@id\": \"likes\"\x7d\x7d]\x7d"

/-- The same with other types, with a language and a label, and with references spelled otherwise or
of no form where they do not matter. -/
def acquaintanceRespelled : Text :=
  "\x7b\"@graph\": [\x7b\"@id\": \"Person\", \"@type\": [\"a\", \"b\"], \"note\": 7, " ++
  "\"rdfs:comment\": \x7b\"@value\": \"Someone\", \"@language\": \"en\"\x7d, " ++
  "\"rdfs:subClassOf\": [\"Thing\"]\x7d, " ++
  "\x7b\"@id\": \"Thing\", \"@type\": \"c\", \"rdfs:label\": \"thing\", " ++
  "\"rdfs:subClassOf\": null, \"schema:inverseOf\": 3\x7d, " ++
  "\x7b\"@id\": \"knows\", \"@type\": \"c\", " ++
  "\"schema:domainIncludes\": [\x7b\"@id\": \"Thing\", \"note\": null\x7d], " ++
  "\"schema:rangeIncludes\": [\x7b\"@id\": \"Person\"\x7d, \x7b\"@id\": \"Gone\"\x7d], " ++
  "\"schema:supersededBy\": 7\x7d]\x7d"

theorem acquaintance_agrees : ∃ d d' r r', (Document.read (.text acquaintance)).result = .ok d ∧
    (Document.read (.text acquaintanceRespelled)).result = .ok d' ∧
    List.Forall₂ Node.Agrees d.nodes d'.nodes ∧
    (load (.text acquaintance) true false).result = .ok r ∧
    (load (.text acquaintanceRespelled) true false).result = .ok r' ∧
    r.children = ([["knows"], ["knows"], ["Person"]] : List (List Text)) ∧
    r'.children = r.children ∧ r.counters = r'.counters ∧
    ∀ keep package, (Generated.ofResolved keep package r).source =
      (Generated.ofResolved keep package r').source := by
  have hagree : ((Document.read (.text acquaintance)).result.toOption.bind fun d ↦
      (Document.read (.text acquaintanceRespelled)).result.toOption.map fun d' ↦
        decide (List.Forall₂ Node.Agrees d.nodes d'.nodes)) = some true := by decide +kernel
  have hlists : (load (.text acquaintance) true false).result.toOption.map Resolved.children =
      some ([["knows"], ["knows"], ["Person"]] : List (List Text)) := by decide +kernel
  obtain ⟨d, hd, hagree⟩ := exists_of_toOption_bind_eq_some hagree
  obtain ⟨d', hd', hagree⟩ := exists_of_toOption_map_eq_some hagree
  have hagree := of_decide_eq_true hagree
  obtain ⟨r, hr, hchildren⟩ := Logged.exists_of_map_eq_some hlists
  rcases load_agrees hd hd' hagree true false with ⟨e, he, -⟩ | ⟨_, r', hr₁, hr', hsame, hcounters, hfile⟩
  · rw [hr] at he
    cases he
  · obtain rfl := Except.ok.inj (hr.symm.trans hr₁)
    exact ⟨d, d', r, r', hd, hd', hagree, hr, hr', hchildren, hsame.symm, hcounters,
      fun keep package ↦ (hfile keep package).2⟩

end Resolved

end OntologyStructs
