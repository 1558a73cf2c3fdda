import Mathlib.Algebra.GroupWithZero.Nat
import OntologyStructs.Generation
import OntologyStructs.Proofs.Dump
import OntologyStructs.Proofs.Resolution.Tally
import OntologyStructs.Proofs.Struct

namespace OntologyStructs

namespace Ontology

variable {o : Ontology} {c : Children}

theorem edges_eq (hc : ∀ p, ∀ id ∈ c.listAt p, o.knows id) :
    o.edges c = o.ids.flatMap fun id ↦ (o.childrenOf c id).map fun child ↦ (id, child) := by
  rw [edges, childLists_eq hc, List.flatMap_map]

theorem childrenOf_subset_ids (hc : ∀ p, ∀ id ∈ c.listAt p, o.knows id) (a : Text) :
    o.childrenOf c a ⊆ o.ids := by
  intro id hid
  rw [childrenOf] at hid
  cases hp : o.position? a with
  | none => simp [hp] at hid
  | some p =>
    rw [hp, Option.elim_some] at hid
    exact o.mem_ids.mpr (hc p id hid)

/-- The graph has no other edges than those that are put in, in their order. -/
theorem ofEdges_edges (hfits : c.Fits o) (hc : ∀ p, ∀ id ∈ c.listAt p, o.knows id) :
    (Digraph.ofEdges o.ids (o.edges c)).keys = o.ids ∧
      (Digraph.ofEdges o.ids (o.edges c)).edges = o.edges c := by
  rw [edges_eq hc]
  exact Digraph.edges_ofEdges (o.childrenOf c) o.nodup_ids fun a _ ↦
    ⟨nodup_childrenOf hfits a, childrenOf_subset_ids hc a⟩

end Ontology

namespace Struct

variable {keep : Bool} {o : Ontology} {c : Children}

theorem tags_childFields_ofNode (n : Node) (children : List Text) :
    (ofNode keep n children).childFields.map Field.tag = children := by
  rw [childFields_ofNode, List.map_map]
  exact List.map_id' _

theorem tags_all : ((all keep o c).map fun s ↦ (s.source, s.childFields.map Field.tag)) =
    o.ids.map fun id ↦ (id, o.childrenOf c id) := by
  rw [all, List.map_filterMap]
  simp only [Option.map_map]
  refine Ontology.filterMap_indexed fun p n hp _ ↦ ?_
  rw [Function.comp, tags_childFields_ofNode, Ontology.childrenOf_eq hp]
  rfl

theorem totalChildFields_all :
    totalChildFields (all keep o c) = (o.ids.flatMap fun id ↦ o.childrenOf c id).length := by
  have h := congrArg (fun l ↦ (l.map fun e ↦ e.2.length).sum) (@tags_all keep o c)
  simp only [List.map_map, Function.comp_def, List.length_map] at h
  rw [totalChildFields, List.length_flatMap, List.length_flatMap]
  exact h

theorem totalChildFields_of_nodup (hnd : (o.nodes.map Node.id).Nodup) (hfits : c.Fits o) :
    totalChildFields (all keep o c) = c.total := by
  rw [totalChildFields_all, Ontology.total_eq_length hnd hfits, o.ids_eq, hnd.eraseDups_eq,
    List.flatMap_map]

end Struct

namespace Dump

theorem map_listed {o : Ontology} {c : Children} (hfits : c.Fits o) :
    (o.nodes.zipIdx.map fun (n, p) ↦ (n.id, c.listAt p)).map (·.2) = c := by
  apply List.ext_getElem
  · rw [List.length_map, List.length_map, List.length_zipIdx, hfits.length]
  · intro p _ hp
    simp [Children.listAt, List.getD_eq_getElem?_getD, List.getElem?_eq_getElem hp]

end Dump

namespace Generated

/-- The children of an identifier are the same in its struct, in its last entry and in the graph. -/
theorem children_agree {o : Ontology} {c : Children} {u : Text} (keep : Bool)
    (hc : ∀ p, ∀ id ∈ c.listAt p, o.knows id) (hu : o.knows u) :
    ∃ s, (Struct.all keep o c).filter (fun t ↦ t.source = u) = [s] ∧
      Dump.lastListed? (Dump.resolved o c) u = some (s.childFields.map Field.tag) ∧
      ((o.edges c).filter fun e ↦ u = e.1).map (·.2) = s.childFields.map Field.tag := by
  obtain ⟨p, hp⟩ := Option.isSome_iff_exists.mp hu
  obtain ⟨n, hn, rfl⟩ := Ontology.exists_of_position? hp
  have hmem : Struct.ofNode keep n (c.listAt p) ∈ Struct.all keep o c :=
    Struct.mem_all.mpr ⟨n.id, p, n, hp, hn, rfl⟩
  have hsources : ((Struct.all keep o c).map Struct.source).Nodup := by
    rw [Struct.map_source_all]
    exact o.nodup_ids
  refine ⟨Struct.ofNode keep n (c.listAt p), List.filter_eq_singleton hsources hmem, ?_, ?_⟩
  · rw [Struct.tags_childFields_ofNode, Dump.lastListed?_resolved hp]
  · rw [Struct.tags_childFields_ofNode, Ontology.edges_eq hc,
      Digraph.filter_pairs (o.childrenOf c) o.nodup_ids (o.mem_ids.mpr hu),
      Ontology.childrenOf_eq hp]

/-- Structs, dump and graph show the same children, and the figures count them. -/
theorem outputs_agree {source : Source} {strict leaveOut : Bool} {r : Resolved}
    (h : (Resolved.load source strict leaveOut).result = .ok r) (keep : Bool) (package : Text) :
    ∃ d entries ids links, (Document.read source).result = .ok d ∧
      Dump.listed? (Dump.resolved r.ontology r.children) = some entries ∧
      Dump.linkedIds? (Dump.nodeLink r.ontology r.children) = some ids ∧
      Dump.links? (Dump.nodeLink r.ontology r.children) = some links ∧
      (∀ u ∈ d.nodes.map Node.id, ∃ s,
        (ofResolved keep package r).structs.filter (fun t ↦ t.source = u) = [s] ∧
        Dump.lastListed? (Dump.resolved r.ontology r.children) u =
          some (s.childFields.map Field.tag) ∧
        (links.filter fun e ↦ u = e.1).map (·.2) = s.childFields.map Field.tag) ∧
      (Digraph.ofEdges ids links).keys = ids ∧
      (Digraph.ofEdges ids links).edges = links ∧
      (ofResolved keep package r).structs.length = r.ontology.size ∧
      ids.length = r.ontology.size ∧
      Struct.totalChildFields (ofResolved keep package r).structs = links.length ∧
      (∀ settings, ((("Declarations" : Text), Text.ofNat ids.length)) ∈
          (ofResolved keep package r).summary settings ∧
        ((("Child fields" : Text), Text.ofNat links.length)) ∈
          (ofResolved keep package r).summary settings) ∧
      r.counters.total = (entries.map fun e ↦ e.2.length).sum ∧
      ((d.nodes.map Node.id).Nodup →
        r.counters.total = Struct.totalChildFields (ofResolved keep package r).structs) := by
  obtain ⟨d, hd, hr⟩ := Resolved.load_eq_ok h
  have hfits := Ontology.fits_of_resolve hr
  have hknown : ∀ p, ∀ id ∈ r.children.listAt p, (Ontology.ofDocument d).knows id :=
    fun _ _ hid ↦ Ontology.knows_of_resolve hr hid
  have htotal := Ontology.total_of_resolve hr
  have hstructs : (ofResolved keep package r).structs =
      Struct.all keep (Ontology.ofDocument d) r.children := by
    rw [← Ontology.ontology_of_resolve hr]
    rfl
  have hsize : (Ontology.ofDocument d).ids.length = (Ontology.ofDocument d).size := List.length_map _
  have hlength : (ofResolved keep package r).structs.length = (Ontology.ofDocument d).size := by
    rw [hstructs, ← List.length_map (f := Struct.source), Struct.map_source_all, hsize]
  have hlinks : Struct.totalChildFields (ofResolved keep package r).structs =
      ((Ontology.ofDocument d).edges r.children).length := by
    rw [hstructs, Struct.totalChildFields_all, Ontology.edges_eq hknown]
    simp only [List.length_flatMap, List.length_map]
  have hgraph := Ontology.ofEdges_edges hfits hknown
  rw [Ontology.ontology_of_resolve hr]
  refine ⟨d, _, _, _, hd, Dump.listed?_resolved _ _, Dump.linkedIds?_nodeLink _ _,
    Dump.links?_nodeLink _ _, ?_, hgraph.1, hgraph.2, hlength, hsize, hlinks, ?_, ?_, ?_⟩
  · intro u hu
    rw [hstructs]
    obtain ⟨n, hn, rfl⟩ := List.mem_map.mp hu
    exact children_agree keep hknown ((Ontology.ofDocument d).knows_of_mem hn)
  · intro settings
    rw [hsize, ← hlength, ← hlinks]
    simp [summary]
  · rw [htotal, Children.total, List.length_flatten]
    have hlists := congrArg (List.map List.length) (Dump.map_listed hfits)
    rw [List.map_map] at hlists
    exact congrArg List.sum hlists.symm
  · intro hnd
    rw [htotal, hstructs, Struct.totalChildFields_of_nodup hnd hfits]

/-- A document of a name, which first ranges over text and then comes again without a range. -/
def shadowedName : Text :=
  "\x7b\"@graph\": [\x7b\"@id\": \"schema:name\", \"@type\": \"rdf:Property\", " ++
  "\"schema:rangeIncludes\": \x7b\"@id\": \"schema:Text\"\x7d, " ++
  "\"schema:domainIncludes\": \x7b\"@id\": \"schema:Text\"\x7d\x7d, " ++
  "\x7b\"@id\": \"schema:Text\", \"@type\": \"rdfs:Class\"\x7d, " ++
  "\x7b\"@id\": \"schema:name\", \"@type\": \"rdf:Property\"\x7d]\x7d"

theorem shadowedName_agrees : ∃ r, (Resolved.load (.text shadowedName) false false).result = .ok r ∧
    r.counters.total = 2 ∧
    Struct.totalChildFields (ofResolved false "structs" r).structs = 1 ∧
    ∃ entries ids links,
      Dump.listed? (Dump.resolved r.ontology r.children) = some entries ∧
      Dump.linkedIds? (Dump.nodeLink r.ontology r.children) = some ids ∧
      Dump.links? (Dump.nodeLink r.ontology r.children) = some links ∧
      (Digraph.ofEdges ids links).edges = links ∧
      Struct.totalChildFields (ofResolved false "structs" r).structs = links.length ∧
      r.counters.total = (entries.map fun e ↦ e.2.length).sum := by
  have hcounts : (Resolved.load (.text shadowedName) false false).result.toOption.map
      (fun r ↦ (r.counters.total, Struct.totalChildFields (ofResolved false "structs" r).structs)) =
        some (2, 1) := by decide +kernel
  obtain ⟨r, hr, hcount⟩ := Logged.exists_of_map_eq_some hcounts
  obtain ⟨htotals, hfieldCount⟩ := Prod.mk.inj hcount
  obtain ⟨d, entries, ids, links, _, hentries, hids, hlinks, _, _, hedges, _, _, hfields, _, htotal,
    _⟩ := outputs_agree hr false "structs"
  exact ⟨r, hr, htotals, hfieldCount, entries, ids, links, hentries, hids, hlinks, hedges, hfields,
    htotal⟩

end Generated

end OntologyStructs
