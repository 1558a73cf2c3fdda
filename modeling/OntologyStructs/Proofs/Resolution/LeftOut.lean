import OntologyStructs.Proofs.Struct

namespace OntologyStructs

/-- The first children are among the second, and each that is missing is `lost`. -/
structure Children.Lacks (c d : Children) (lost : Text → Prop) : Prop where
  subset : ∀ p, c.listAt p ⊆ d.listAt p
  lost : ∀ p, ∀ id ∈ d.listAt p, id ∈ c.listAt p ∨ lost id

namespace ResolutionStep

variable {s : ResolutionStep} {c d : Children} {P Q : Progress} {lost : Text → Prop}

theorem brings_subset (h : c.Lacks d lost) : s.brings c ⊆ s.brings d := by
  cases s with
  | inherit p a => exact h.subset a
  | member p id => exact List.Subset.refl _
  | range p id => exact List.Subset.refl _
  | dangling r id target => exact List.Subset.refl _
  | superseded r id => exact List.Subset.refl _

theorem brings_or_lost (h : c.Lacks d lost) : ∀ id ∈ s.brings d, id ∈ s.brings c ∨ lost id := by
  cases s with
  | inherit p a => exact h.lost a
  | member p id => exact fun _ ↦ .inl
  | range p id => exact fun _ ↦ .inl
  | dangling r id target => exact fun _ ↦ .inl
  | superseded r id => exact fun _ ↦ .inl

theorem lacks_apply (hP : s.Within P.children.length) (hQ : s.Within Q.children.length)
    (hdP : P.children.Distinct) (hdQ : Q.children.Distinct) (h : P.children.Lacks Q.children lost) :
    (apply P s).children.Lacks (apply Q s).children lost := by
  constructor
  · intro p id hid
    rw [mem_apply hP hdP] at hid
    exact (mem_apply hQ hdQ).mpr
      (hid.imp (fun hid ↦ h.subset p hid) fun ⟨hp, hid⟩ ↦ ⟨hp, brings_subset h hid⟩)
  · intro p id hid
    rw [mem_apply hP hdP]
    rcases (mem_apply hQ hdQ).mp hid with hid | ⟨hp, hid⟩
    · exact (h.lost p id hid).imp_left .inl
    · exact (brings_or_lost h id hid).imp_left fun hid ↦ .inr ⟨hp, hid⟩

end ResolutionStep

/-- The same steps on two states widen no gap between them. -/
theorem Progress.lacks_run {P Q : Progress} {ss : List ResolutionStep} {lost : Text → Prop}
    (hP : ∀ s ∈ ss, s.Within P.children.length) (hQ : ∀ s ∈ ss, s.Within Q.children.length)
    (hdP : P.children.Distinct) (hdQ : Q.children.Distinct) (h : P.children.Lacks Q.children lost) :
    (P.run ss).children.Lacks (Q.run ss).children lost := by
  induction ss generalizing P Q with
  | nil => exact h
  | cons s ss ih =>
    have hsP := hP s List.mem_cons_self
    have hsQ := hQ s List.mem_cons_self
    exact ih (within_apply hP) (within_apply hQ) (ResolutionStep.distinct_apply hsP hdP)
      (ResolutionStep.distinct_apply hsQ hdQ) (ResolutionStep.lacks_apply hsP hsQ hdP hdQ h)

namespace Ontology

variable {o : Ontology} {r : Resolved} {p : Nat} {id : Text}

variable (o) in
def Superseded (id : Text) : Prop := ∃ n ∈ o.nodes, n.id = id ∧ n.isSuperseded

theorem failure_directPlan_leaving_out (h : (o.directPlan false).failure = none) :
    (o.directPlan true).failure = none := by
  rw [failure_directPlan] at h ⊢
  intro n hn
  obtain ⟨hjoin, hrange⟩ := h n hn
  exact ⟨.inr (hjoin.resolve_left Bool.false_ne_true), hrange⟩

theorem mem_directChildren_iff {leaveOut : Bool} {q : Nat}
    (h : (o.directPlan leaveOut).failure = none) :
    id ∈ (o.directChildren leaveOut).listAt q ↔
      (∃ n ∈ o.nodes, n.id = id ∧ ∃ t ∈ n.joined leaveOut, o.position? t = some q) ∨
        ∃ n, o.nodes[q]? = some n ∧ id ∈ n.targets .rangeIncludes ∧ o.knows id :=
  mem_directChildren.trans (o.gives_directPlan leaveOut h)

theorem lacks_directChildren (h : (o.directPlan false).failure = none) :
    (o.directChildren true).Lacks (o.directChildren false) o.Superseded := by
  have hOn := failure_directPlan_leaving_out h
  constructor
  · intro q id hid
    rw [mem_directChildren_iff hOn] at hid
    rw [mem_directChildren_iff h]
    refine hid.imp_left fun ⟨n, hn, hid, t, ht, hq⟩ ↦ ⟨n, hn, hid, t, ?_, hq⟩
    rw [Node.joined] at ht ⊢
    cases hs : n.isSuperseded with
    | true => simp [hs] at ht
    | false => simpa [hs] using ht
  · intro q id hid
    rw [mem_directChildren_iff h] at hid
    rw [mem_directChildren_iff hOn]
    rcases hid with ⟨n, hn, hid, t, ht, hq⟩ | hrange
    · cases hs : n.isSuperseded with
      | true => exact .inr ⟨n, hn, hid, hs⟩
      | false => exact .inl (.inl ⟨n, hn, hid, t, by simpa [Node.joined, hs] using ht, hq⟩)
    · exact .inl (.inr hrange)

/-- Leaving out superseded entries brings about no failure, and of the children it takes away only
superseded ones, inherited or not. -/
theorem resolve_leaving_out (h : (o.resolve false).result = .ok r) :
    ∃ r', (o.resolve true).result = .ok r' ∧ r'.children.Lacks r.children o.Superseded := by
  obtain ⟨hd, hi, rfl⟩ := resolve_eq_ok.mp h
  refine ⟨_, resolve_eq_ok.mpr ⟨failure_directPlan_leaving_out hd, hi, rfl⟩, ?_⟩
  have hfits (leaveOut : Bool) := o.fits_directChildren leaveOut
  have hwithin (leaveOut : Bool) : ∀ s ∈ o.inheritancePlan.steps,
      s.Within (o.directChildren leaveOut).length := by
    intro s hs
    rw [(hfits leaveOut).length]
    exact (o.inheritStep_inheritancePlan hs).within
  exact Progress.lacks_run (hwithin true) (hwithin false) (hfits true).distinct (hfits false).distinct
    (lacks_directChildren hd)

/-- A child that stays although all entries of its identifier are left out is in the range of an entry
that hands it down. -/
theorem exists_range_of_superseded (h : (o.resolve true).result = .ok r)
    (hid : id ∈ r.children.listAt p) (hs : ∀ n ∈ o.nodes, n.id = id → n.isSuperseded) :
    ∃ q n, o.Below p q ∧ o.nodes[q]? = some n ∧ id ∈ n.targets .rangeIncludes := by
  obtain ⟨q, hpq, hq⟩ := due_of_resolve h hid
  obtain ⟨hd, -⟩ := resolve_eq_ok.mp h
  rcases (mem_directChildren_iff hd).mp hq with ⟨n, hn, hnid, t, ht, _⟩ | ⟨n, hn, hrange, _⟩
  · simp [Node.joined, hs n hn hnid] at ht
  · exact ⟨q, n, hpq, hn, hrange⟩

end Ontology

/-- Leaving out superseded entries takes them from other entries and changes nothing else: every
document that loads still loads, with the same structs, and a superseded entry stays a child only
where some entry ranges over it. -/
theorem Resolved.load_leaving_out {source : Source} {strict : Bool} {r : Resolved}
    (h : (load source strict false).result = .ok r) :
    ∃ r', (load source strict true).result = .ok r' ∧ r'.ontology = r.ontology ∧
      (∀ p, r'.children.listAt p ⊆ r.children.listAt p) ∧
      (∀ p, ∀ id ∈ r.children.listAt p, id ∉ r'.children.listAt p →
        ∃ n ∈ r.ontology.nodes, n.id = id ∧ n.isSuperseded) ∧
      (∀ p, ∀ id ∈ r'.children.listAt p, (∀ n ∈ r.ontology.nodes, n.id = id → n.isSuperseded) →
        ∃ q n, r.ontology.Below p q ∧ r.ontology.nodes[q]? = some n ∧
          id ∈ n.targets .rangeIncludes) ∧
      ∀ keep, (Struct.all keep r'.ontology r'.children).map Struct.source =
        (Struct.all keep r.ontology r.children).map Struct.source := by
  obtain ⟨d, hd, ho, hr⟩ := load_eq_ok_iff.mp h
  obtain ⟨r', hr', hlacks⟩ := Ontology.resolve_leaving_out hr
  have hsame := Ontology.ontology_of_resolve hr
  have hsame' := Ontology.ontology_of_resolve hr'
  refine ⟨r', load_eq_ok_iff.mpr ⟨d, hd, ho, hr'⟩, hsame'.trans hsame.symm, hlacks.subset, ?_, ?_, ?_⟩
  · intro p id hid hn
    rw [hsame]
    exact (hlacks.lost p id hid).resolve_left hn
  · intro p id hid hs
    rw [hsame] at hs ⊢
    exact Ontology.exists_range_of_superseded hr' hid hs
  · intro keep
    rw [Struct.map_source_all, Struct.map_source_all, hsame, hsame']

/-- A byline, which the name has superseded but still ranges over, and a circle of classes that have
it. -/
def byline : Text :=
  "\x7b\"@graph\": [\x7b\"@id\": \"Author\", \"@type\": \"rdfs:Class\", " ++
  "\"rdfs:subClassOf\": \x7b\"@id\": \"Writer\"\x7d\x7d, " ++
  "\x7b\"@id\": \"Writer\", \"@type\": \"rdfs:Class\", " ++
  "\"rdfs:subClassOf\": \x7b\"@id\": \"Author\"\x7d\x7d, " ++
  "\x7b\"@id\": \"byline\", \"@type\": \"rdf:Property\", " ++
  "\"schema:domainIncludes\": \x7b\"@id\": \"Writer\"\x7d, " ++
  "\"schema:supersededBy\": \x7b\"@id\": \"name\"\x7d\x7d, " ++
  "\x7b\"@id\": \"name\", \"@type\": \"rdf:Property\", " ++
  "\"schema:domainIncludes\": \x7b\"@id\": \"Writer\"\x7d, " ++
  "\"schema:rangeIncludes\": \x7b\"@id\": \"byline\"\x7d\x7d]\x7d"

theorem Resolved.byline_left_out : ∃ r r', (load (.text byline) false false).result = .ok r ∧
    (load (.text byline) false true).result = .ok r' ∧
    r.children = ([["byline", "name"], ["byline", "name"], [], ["byline"]] : List (List Text)) ∧
    (∀ p, r'.children.listAt p ⊆ r.children.listAt p) ∧
    (∀ p, ∀ id ∈ r.children.listAt p, id ∉ r'.children.listAt p →
      ∃ n ∈ r.ontology.nodes, n.id = id ∧ n.isSuperseded) ∧
    ∀ keep, (Struct.all keep r'.ontology r'.children).map Struct.source =
      (Struct.all keep r.ontology r.children).map Struct.source := by
  have hlists : (load (.text byline) false false).result.toOption.map Resolved.children =
      some ([["byline", "name"], ["byline", "name"], [], ["byline"]] : List (List Text)) := by
    decide +kernel
  obtain ⟨r, hr, hchildren⟩ := Logged.exists_of_map_eq_some hlists
  obtain ⟨r', hr', _, hsubset, hlost, _, hsources⟩ := load_leaving_out hr
  exact ⟨r, r', hr, hr', hchildren, hsubset, hlost, hsources⟩

end OntologyStructs
