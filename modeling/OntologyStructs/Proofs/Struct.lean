import OntologyStructs.Proofs.Loading
import OntologyStructs.Proofs.Resolution.Phases
import OntologyStructs.Struct

namespace OntologyStructs.Struct

variable {keep : Bool} {o : Ontology} {c : Children} {s : Struct}

theorem mem_indexed {p : Nat} : p ∈ o.indexed ↔ ∃ id, o.position? id = some p := by
  rw [Ontology.indexed, Assoc.values, List.mem_map]
  constructor
  · intro hx
    obtain ⟨⟨id, q⟩, hid, rfl⟩ := hx
    exact ⟨id, o.mem_positions.mp hid⟩
  · intro hx
    obtain ⟨id, hid⟩ := hx
    exact ⟨(id, p), o.mem_positions.mpr hid, rfl⟩

theorem mem_all : s ∈ all keep o c ↔
    ∃ id p n, o.position? id = some p ∧ o.nodes[p]? = some n ∧ s = ofNode keep n (c.listAt p) := by
  simp only [all, List.mem_filterMap, mem_indexed, Option.map_eq_some_iff]
  constructor
  · intro hx
    obtain ⟨p, ⟨id, hid⟩, n, hn, rfl⟩ := hx
    exact ⟨id, p, n, hid, hn, rfl⟩
  · intro hx
    obtain ⟨id, p, n, hid, hn, rfl⟩ := hx
    exact ⟨p, ⟨id, hid⟩, n, hn, rfl⟩

theorem map_source_all : (all keep o c).map source = o.ids := by
  rw [all, List.map_filterMap]
  simp only [Option.map_map]
  exact (Ontology.filterMap_indexed fun _ _ _ _ ↦ rfl).trans (List.map_id _)

theorem childFields_ofNode (n : Node) (children : List Text) :
    (ofNode keep n children).childFields = children.map (childField keep) := by
  have hc : (children.map (childField keep)).filter Field.refers =
      children.map (childField keep) := by
    rw [List.filter_eq_self]
    exact List.forall_mem_map.mpr fun _ _ ↦ rfl
  rw [childFields, ofNode, List.filter_append, hc]
  rfl

theorem exists_of_knows {id : Text} (h : o.knows id) : ∃ t ∈ all keep o c,
    t.source = (childField keep id).tag ∧ t.name = (childField keep id).typeName := by
  obtain ⟨p, hp⟩ := Option.isSome_iff_exists.mp h
  obtain ⟨n, hn, rfl⟩ := Ontology.exists_of_position? hp
  exact ⟨_, mem_all.mpr ⟨n.id, p, n, hp, hn, rfl⟩, rfl, rfl⟩

/-- Whatever a field refers to is one of the structs, under the name that the field has for it. -/
def Closed (ss : List Struct) : Prop :=
  ∀ s ∈ ss, ∀ f ∈ s.childFields, ∃ t ∈ ss, t.source = f.tag ∧ t.name = f.typeName

theorem closed_all (h : ∀ p, ∀ id ∈ c.listAt p, o.knows id) : Closed (all keep o c) := by
  intro s hs f hf
  obtain ⟨_, p, n, _, _, rfl⟩ := mem_all.mp hs
  rw [childFields_ofNode] at hf
  obtain ⟨id, hid, rfl⟩ := List.mem_map.mp hf
  exact exists_of_knows (h p id hid)

/-- Structs are made of the last entry of each identifier, in the order in which identifiers first
came, and refer to nothing else. -/
theorem load_closed {source : Source} {strict leaveOut : Bool} {r : Resolved}
    (h : (Resolved.load source strict leaveOut).result = .ok r) (keep : Bool) :
    ∃ d, (Document.read source).result = .ok d ∧
      (all keep r.ontology r.children).map Struct.source = (d.nodes.map Node.id).eraseDups ∧
      (∀ s ∈ all keep r.ontology r.children, ∃ p n,
        Index.IsLast (d.nodes.map Node.id) s.source p ∧ d.nodes[p]? = some n ∧
        s = ofNode keep n (r.children.listAt p) ∧
        s.fields = header ++ (r.children.listAt p).map (childField keep) ∧
        s.childFields = (r.children.listAt p).map (childField keep) ∧
        (s.childFields.map Field.tag).Nodup) ∧
      Closed (all keep r.ontology r.children) := by
  obtain ⟨d, hd, hr⟩ := Resolved.load_eq_ok h
  have ho := Ontology.ontology_of_resolve hr
  have hfits := Ontology.fits_of_resolve hr
  refine ⟨d, hd, ?_, ?_, ?_⟩
  · rw [map_source_all, ho, Ontology.ids_eq]
    rfl
  · intro s hs
    rw [ho] at hs
    obtain ⟨id, p, n, hid, hn, rfl⟩ := mem_all.mp hs
    have hlast := ((Ontology.ofDocument d).position?_eq_some).mp hid
    obtain ⟨n', hn', rfl⟩ := Ontology.exists_of_position? hid
    obtain rfl : n = n' := Option.some.inj (hn.symm.trans hn')
    have hchildren := @childFields_ofNode keep n (r.children.listAt p)
    refine ⟨p, n, hlast, hn, rfl, rfl, hchildren, ?_⟩
    have htags : ((r.children.listAt p).map (childField keep)).map Field.tag =
        r.children.listAt p := by
      rw [List.map_map]
      exact List.map_id' _
    rw [hchildren, htags]
    exact hfits.distinct p
  · rw [ho]
    exact closed_all fun p id hid ↦ Ontology.knows_of_resolve hr hid

/-- A document of a thing, which comes twice, and its name, which belongs to something unknown too. -/
def namedThing : Text :=
  "\x7b\"@graph\": [\x7b\"@id\": \"schema:Thing\", \"@type\": \"rdfs:Class\"\x7d, " ++
  "\x7b\"@id\": \"schema:name\", \"@type\": \"rdf:Property\", \"schema:domainIncludes\": " ++
  "[\x7b\"@id\": \"schema:Thing\"\x7d, \x7b\"@id\": \"schema:Gone\"\x7d]\x7d, " ++
  "\x7b\"@id\": \"schema:Thing\", \"@type\": \"rdfs:Class\"\x7d]\x7d"

theorem namedThing_closed : ∃ r, (Resolved.load (.text namedThing) false false).result = .ok r ∧
    (all false r.ontology r.children).map Struct.name = (["Thing", "PropName"] : List Text) ∧
    ∃ d, (Document.read (.text namedThing)).result = .ok d ∧
      (all false r.ontology r.children).map Struct.source = (d.nodes.map Node.id).eraseDups ∧
      Closed (all false r.ontology r.children) := by
  have hnames : (Resolved.load (.text namedThing) false false).result.toOption.map
      (fun r ↦ (all false r.ontology r.children).map Struct.name) =
        some (["Thing", "PropName"] : List Text) := by decide +kernel
  cases h : (Resolved.load (.text namedThing) false false).result with
  | error e => simp [h, Except.toOption] at hnames
  | ok r =>
    simp only [h, Except.toOption, Option.map_some, Option.some.injEq] at hnames
    obtain ⟨d, hd, hsource, _, hclosed⟩ := load_closed h false
    exact ⟨r, rfl, hnames, d, hd, hsource, hclosed⟩

end OntologyStructs.Struct
