import OntologyStructs.Proofs.Document
import OntologyStructs.Proofs.Dump
import OntologyStructs.Proofs.Json.Portable
import OntologyStructs.Proofs.Value.Spelled

namespace OntologyStructs

theorem TypeSet.holds_of_read {p : Json → Bool} {v : Json} {s : TypeSet} (h : read v = .ok s)
    (hv : v.all p) : ∀ t ∈ s.toList, p (.text t) := by
  cases read_eq_ok.mp h with
  | alone t => exact List.forall_mem_singleton.mpr hv
  | listed t ts => exact fun u hu ↦ (Json.all_iff.mp hv).2 (.text u) (List.mem_map_of_mem hu)

theorem LangText.Says.holds {p : Json → Bool} {v : Json} {t : Text} (h : Says v t)
    (hempty : p (.text [])) (hv : v.all p) : p (.text t) := by
  cases h with
  | text t => exact hv
  | null => exact hempty

theorem LangText.holds_of_read {p : Json → Bool} {v : Json} {t : LangText} (hempty : p (.text []))
    (h : read v = .ok t) (hv : v.all p) : p (.text t.value) ∧ p (.text t.language) := by
  cases read_eq_ok.mp h with
  | alone ht => exact ⟨ht.holds hempty hv, hempty⟩
  | value ht hvalue _ => exact ⟨ht.holds hempty (Json.all_of_get? hv hvalue), hempty⟩
  | both ht hl hvalue hlanguage =>
    exact ⟨ht.holds hempty (Json.all_of_get? hv hvalue), hl.holds hempty (Json.all_of_get? hv hlanguage)⟩

theorem TypeSet.all_toJson {p : Json → Bool} (hp : Json.IsTextual p) {s : TypeSet}
    (hs : ∀ t ∈ s.toList, t.isEncodable) : s.toJson.all p := by
  rw [toJson]
  split
  · exact hp.all_text (hs _ List.mem_cons_self)
  · exact hp.all_texts hs

theorem LangText.all_toJson {p : Json → Bool} (hp : Json.IsTextual p) {t : LangText}
    (ht : t.value.isEncodable ∧ t.language.isEncodable) : t.toJson.all p := by
  rw [toJson]
  split
  · exact hp.all_text ht.1
  · have hnodup : (["@value", "@language"] : List Text).Nodup := by decide
    have hkeys : (["@value", "@language"] : List Text).all Text.isEncodable := by decide
    refine Json.all_iff.mpr ⟨hp.object hnodup hkeys, ?_⟩
    exact List.forall_mem_cons.mpr ⟨hp.all_text ht.1, List.forall_mem_singleton.mpr (hp.all_text ht.2)⟩

theorem Relation.key_injective : key.Injective := by
  intro r s h
  cases r <;> cases s <;> first | rfl | exact absurd h (by decide)

namespace Node

variable {n : Node} {children : List Text}

/-- An entry that is written is read again, whatever is written after it that is no relation. -/
theorem read_object_members {rest : List (Text × Json)} (hn : ∀ r, n.relation r ≠ some .null)
    (hrest : ∀ r : Relation, Assoc.get? r.key rest = none) :
    read (.object (n.members ++ rest)) = .ok n := by
  have hid : readId (.object (n.members ++ rest)) = .ok n.id := rfl
  have htypes : readTypes (.object (n.members ++ rest)) = .ok n.types := by
    have hget : (Json.object (n.members ++ rest)).get? typesKey = some n.types.toJson := rfl
    rw [readTypes, hget]
    simp only [TypeSet.read_toJson]
    rfl
  have hcomment : readText commentKey (.object (n.members ++ rest)) = .ok n.comment := by
    have hget : (Json.object (n.members ++ rest)).get? commentKey = some n.comment.toJson := rfl
    rw [readText, hget, Option.getD_some, LangText.read_toJson]
    rfl
  have hlabel : readText labelKey (.object (n.members ++ rest)) = .ok n.label := by
    have hget : (Json.object (n.members ++ rest)).get? labelKey = some n.label.toJson := rfl
    rw [readText, hget, Option.getD_some, LangText.read_toJson]
    rfl
  have hrelation : readRelation (.object (n.members ++ rest)) = n.relation := by
    funext r
    have hfirst : Assoc.get? r.key [(idKey, Json.text n.id), (typesKey, n.types.toJson),
        (commentKey, n.comment.toJson), (labelKey, n.label.toJson)] = none := by
      cases r <;> rfl
    have hall : r ∈ Relation.all := by cases r <;> decide
    have hget : (Json.object (n.members ++ rest)).get? r.key = n.relation r := by
      rw [Json.get?, members, Assoc.get?_append_eq_or, Assoc.get?_append_eq_or, hfirst, hrest,
        Assoc.get?_filterMap Relation.key_injective (.inl hall), Option.none_or, Option.or_none]
    rw [readRelation, hget]
    have hr := hn r
    cases hv : n.relation r with
    | none => rfl
    | some v =>
      cases v with
      | null => exact absurd hv hr
      | _ => rfl
  rw [read]
  simp only [hid, htypes, hcomment, hlabel, hrelation]

theorem read_toJsonWith (hn : ∀ r, n.relation r ≠ some .null) :
    read (n.toJsonWith children) = .ok n :=
  read_object_members hn fun r ↦ by cases r <;> rfl

theorem read_toJson (hn : ∀ r, n.relation r ≠ some .null) : read n.toJson = .ok n := by
  have hread : read (.object (n.members ++ [])) = .ok n := read_object_members hn fun _ ↦ rfl
  rwa [List.append_nil] at hread

section read

variable {v : Json} {p : Json → Bool}

theorem read_eq_ok (h : read v = .ok n) : readId v = .ok n.id ∧ readTypes v = .ok n.types ∧
    readText commentKey v = .ok n.comment ∧ readText labelKey v = .ok n.label ∧
      n.relation = readRelation v := by
  cases v with
  | object members =>
    rw [read] at h
    split at h
    · next hid htypes hcomment hlabel =>
      cases h
      exact ⟨hid, htypes, hcomment, hlabel, rfl⟩
    · cases h
  | _ => cases h

theorem relation_ne_null (h : read v = .ok n) (r : Relation) : n.relation r ≠ some .null := by
  obtain ⟨-, -, -, -, hrelation⟩ := read_eq_ok h
  rw [hrelation]
  intro hr
  cases (Option.filter_eq_some_iff.mp hr).2

structure Holds (p : Json → Bool) (n : Node) : Prop where
  id : p (.text n.id)
  types : ∀ t ∈ n.types.toList, p (.text t)
  comment : p (.text n.comment.value) ∧ p (.text n.comment.language)
  label : p (.text n.label.value) ∧ p (.text n.label.language)
  relation : ∀ r w, n.relation r = some w → w.all p

theorem holds_of_read (hempty : p (.text [])) (h : read v = .ok n) (hv : v.all p) : n.Holds p := by
  obtain ⟨hid, htypes, hcomment, hlabel, hrelation⟩ := read_eq_ok h
  obtain ⟨w, hw, htypes⟩ := readTypes_eq_ok.mp htypes
  have htext {key : Text} {t : LangText} (ht : readText key v = .ok t) :
      p (.text t.value) ∧ p (.text t.language) := by
    have hread := readText_eq_ok.mp ht
    cases hu : v.get? key with
    | none =>
      rw [hu] at hread
      cases hread
      exact ⟨hempty, hempty⟩
    | some u =>
      rw [hu] at hread
      exact LangText.holds_of_read hempty hread (Json.all_of_get? hv hu)
  refine ⟨Json.all_of_get? hv (readId_eq_ok.mp hid),
    TypeSet.holds_of_read htypes (Json.all_of_get? hv hw), htext hcomment, htext hlabel, ?_⟩
  intro r u hu
  rw [hrelation] at hu
  exact Json.all_of_get? hv (Option.filter_eq_some_iff.mp hu).1

end read

def allKeys : List Text :=
  [idKey, typesKey, commentKey, labelKey] ++ Relation.all.map Relation.key ++ [childrenKey]

theorem keys_toJsonWith_sublist (n : Node) (children : List Text) :
    (Assoc.keys (n.members ++ [(childrenKey, .list (children.map .text))])).Sublist allKeys := by
  have hrelations : (Assoc.keys (Relation.all.filterMap fun r ↦
      (n.relation r).map fun v ↦ (r.key, v))).Sublist (Relation.all.map Relation.key) := by
    generalize Relation.all = l
    induction l with
    | nil => exact .slnil
    | cons r l ih =>
      rw [List.filterMap_cons, List.map_cons]
      cases n.relation r with
      | none => exact ih.cons _
      | some v => exact ih.cons_cons _
  rw [Assoc.keys, members, List.map_append, List.map_append, allKeys]
  exact (hrelations.append_left _).append_right _

variable {p : Json → Bool}

/-- The texts of an entry with the property are encodable. -/
theorem Holds.isEncodable (hp : Json.IsTextual p) (hn : n.Holds p) : n.id.isEncodable ∧
    (∀ t ∈ n.types.toList, t.isEncodable) ∧ (n.comment.value.isEncodable ∧ n.comment.language.isEncodable) ∧
      n.label.value.isEncodable ∧ n.label.language.isEncodable := by
  simp only [← hp.text]
  exact ⟨hn.id, hn.types, hn.comment, hn.label⟩

theorem all_toJsonWith (hp : Json.IsTextual p) (hn : n.Holds p)
    (hchildren : ∀ t ∈ children, t.isEncodable) : (n.toJsonWith children).all p := by
  obtain ⟨hid, htypes, hcomment, hlabel⟩ := hn.isEncodable hp
  have hkeys := keys_toJsonWith_sublist n children
  have hnodup : allKeys.Nodup := by decide
  have hencodable : allKeys.all Text.isEncodable := by decide
  refine Json.all_iff.mpr ⟨hp.object (hnodup.sublist hkeys)
    (List.all_eq_true.mpr fun k hk ↦ List.all_eq_true.mp hencodable k (hkeys.subset hk)), ?_⟩
  intro w hw
  simp only [toJsonWith, Json.parts, Assoc.values, members, List.map_append, List.mem_append,
    List.map_filterMap, List.mem_filterMap] at hw
  rcases hw with (hw | ⟨r, -, hr⟩) | hw
  · simp only [List.map_cons, List.map_nil, List.mem_cons, List.not_mem_nil, or_false] at hw
    rcases hw with rfl | rfl | rfl | rfl
    · exact hp.all_text hid
    · exact TypeSet.all_toJson hp htypes
    · exact LangText.all_toJson hp hcomment
    · exact LangText.all_toJson hp hlabel
  · rw [Option.map_map] at hr
    obtain ⟨v, hv, rfl⟩ := Option.map_eq_some_iff.mp hr
    exact hn.relation r v hv
  · obtain rfl := List.mem_singleton.mp hw
    exact hp.all_texts hchildren

end Node

namespace Document

variable {v : Json} {d : Document}

theorem readNodes_eq_ok {i : Nat} {entries : List Json} {ns : List Node}
    (h : readNodes i entries = .ok ns) :
    List.Forall₂ (fun e n ↦ Node.read e = .ok n) entries ns := by
  induction entries generalizing i ns with
  | nil =>
    cases h
    exact .nil
  | cons e entries ih =>
    rw [readNodes] at h
    split at h
    · next hn hns =>
      cases h
      exact .cons (Checked.below_eq_ok.mp hn) (ih hns)
    · cases h

theorem check_eq_ok (h : check v = .ok d) :
    readContext v = .ok d.context ∧ readGraph v = .ok d.nodes := by
  cases v with
  | object members =>
    rw [check] at h
    split at h
    · next hcontext hnodes =>
      cases h
      exact ⟨hcontext, hnodes⟩
    · cases h
  | _ => cases h

theorem readContext_eq_ok {context : List (Text × Json)} (h : readContext v = .ok context) :
    v.get? contextKey = some (.object context) ∨ context = [] := by
  rw [readContext, Checked.below_eq_ok] at h
  cases hc : v.get? contextKey with
  | none =>
    rw [hc] at h
    cases h
    exact .inr rfl
  | some c =>
    rw [hc] at h
    cases c with
    | object members =>
      cases h
      exact .inl rfl
    | _ => cases h

theorem readGraph_eq_ok {ns : List Node} (h : readGraph v = .ok ns) :
    ∃ entries, v.get? graphKey = some (.list entries) ∧
      List.Forall₂ (fun e n ↦ Node.read e = .ok n) entries ns := by
  rw [readGraph, Checked.below_eq_ok] at h
  cases hg : v.get? graphKey with
  | none =>
    rw [hg] at h
    cases h
  | some g =>
    rw [hg] at h
    cases g with
    | list entries => exact ⟨entries, rfl, readNodes_eq_ok h⟩
    | _ => cases h

/-- The nodes of a document are read from what it lists. -/
theorem exists_read_of_mem (h : (ofJson v).result = .ok d) {n : Node} (hn : n ∈ d.nodes) :
    ∃ e, Node.read e = .ok n ∧ ∀ p : Json → Bool, v.all p → e.all p := by
  obtain ⟨-, hgraph⟩ := check_eq_ok (ofJson_eq_ok.mp h)
  obtain ⟨entries, hentries, hread⟩ := readGraph_eq_ok hgraph
  obtain ⟨i, hi, rfl⟩ := List.mem_iff_getElem.mp hn
  have hi' : i < entries.length := hread.length_eq ▸ hi
  exact ⟨entries[i], hread.get hi' hi, fun p hv ↦
    (Json.all_iff.mp (Json.all_of_get? hv hentries)).2 _ (List.getElem_mem hi')⟩

end Document

namespace Dump

variable {o : Ontology} {c : Children}

theorem readNodes_toJsonWith (i : Nat) {ns : List (Node × Nat)}
    (hns : ∀ e ∈ ns, ∀ r, e.1.relation r ≠ some .null) :
    Document.readNodes i (ns.map fun (n, p) ↦ n.toJsonWith (c.listAt p)) = .ok (ns.map (·.1)) := by
  induction ns generalizing i with
  | nil => rfl
  | cons e ns ih =>
    obtain ⟨n, p⟩ := e
    obtain ⟨hn, hns⟩ := List.forall_mem_cons.mp hns
    rw [List.map_cons, Document.readNodes, Node.read_toJsonWith hn, ih (i + 1) hns]
    rfl

/-- A dump of a resolved ontology reads as the document that the ontology is of. -/
theorem ofJson_resolved (hnodes : ∀ n ∈ o.nodes, ∀ r, n.relation r ≠ some .null) :
    (Document.ofJson (resolved o c)).result = .ok ⟨o.context, o.nodes⟩ := by
  have hgraph : Document.readGraph (resolved o c) = .ok o.nodes := by
    have hget : (resolved o c).get? Document.graphKey =
        some (.list (o.nodes.zipIdx.map fun (n, p) ↦ n.toJsonWith (c.listAt p))) := rfl
    rw [Document.readGraph, hget]
    simp only
    have hnodes' : ∀ e ∈ o.nodes.zipIdx, ∀ r, e.1.relation r ≠ some .null := fun e he ↦
      hnodes e.1 (List.fst_mem_of_mem_zipIdx he)
    rw [readNodes_toJsonWith 0 hnodes', List.zipIdx_map_fst]
    rfl
  have hcontext : Document.readContext (resolved o c) = .ok o.context := rfl
  rw [Document.ofJson_eq_ok]
  rw [resolved] at hgraph hcontext ⊢
  rw [Document.check, hgraph, hcontext]

variable {p : Json → Bool}

theorem all_resolved (hp : Json.IsTextual p) (hcontext : (Json.object o.context).all p)
    (hnodes : ∀ n ∈ o.nodes, n.Holds p) (hchildren : ∀ i, ∀ t ∈ c.listAt i, t.isEncodable) :
    (resolved o c).all p := by
  have hnodup : ([Document.contextKey, Document.graphKey] : List Text).Nodup := by decide
  have hkeys : ([Document.contextKey, Document.graphKey] : List Text).all Text.isEncodable := by
    decide
  refine Json.all_iff.mpr ⟨hp.object hnodup hkeys, List.forall_mem_cons.mpr
    ⟨hcontext, List.forall_mem_singleton.mpr (Json.all_iff.mpr ⟨hp.list _, ?_⟩)⟩⟩
  intro e he
  obtain ⟨⟨n, i⟩, hn, rfl⟩ := List.mem_map.mp he
  exact Node.all_toJsonWith hp (hnodes n (List.fst_mem_of_mem_zipIdx hn)) (hchildren i)

theorem all_graphNode (hp : Json.IsTextual p) {n : Node} (hn : n.Holds p) : (graphNode n).all p := by
  obtain ⟨hid, htypes, -, hlabel, -⟩ := hn.isEncodable hp
  have hnodup : (["type", "label", "id"] : List Text).Nodup := by decide
  have hkeys : (["type", "label", "id"] : List Text).all Text.isEncodable := by decide
  exact Json.all_iff.mpr ⟨hp.object hnodup hkeys, List.forall_mem_cons.mpr ⟨hp.all_texts htypes,
    List.forall_mem_cons.mpr ⟨hp.all_text hlabel, List.forall_mem_singleton.mpr (hp.all_text hid)⟩⟩⟩

theorem all_graphEdge (hp : Json.IsTextual p) {e : Text × Text}
    (he : e.1.isEncodable ∧ e.2.isEncodable) : (graphEdge e).all p := by
  have hnodup : (["source", "target"] : List Text).Nodup := by decide
  have hkeys : (["source", "target"] : List Text).all Text.isEncodable := by decide
  exact Json.all_iff.mpr ⟨hp.object hnodup hkeys, List.forall_mem_cons.mpr
    ⟨hp.all_text he.1, List.forall_mem_singleton.mpr (hp.all_text he.2)⟩⟩

theorem all_nodeLink (hp : Json.IsTextual p) (hnodes : ∀ n ∈ o.nodes, n.Holds p) :
    (nodeLink o c).all p := by
  have hids {id : Text} (hid : o.knows id) : id.isEncodable := by
    obtain ⟨n, hn, rfl⟩ := o.knows_iff.mp hid
    exact ((hnodes n hn).isEncodable hp).1
  have hedges : ∀ e ∈ o.edges c, e.1.isEncodable ∧ e.2.isEncodable := by
    intro e he
    obtain ⟨⟨id, children⟩, hlist, he⟩ := List.mem_flatMap.mp he
    obtain ⟨⟨a, i⟩, hi, ⟨⟩⟩ := List.mem_map.mp hlist
    obtain ⟨child, hchild, rfl⟩ := List.mem_map.mp he
    exact ⟨hids (o.mem_ids.mp (List.mem_map_of_mem hi)), hids (List.mem_filter.mp hchild).2⟩
  have hentries : ∀ v ∈ o.indexed.filterMap fun i ↦ (o.nodes[i]?).map graphNode, v.all p := by
    intro v hv
    obtain ⟨i, -, hv⟩ := List.mem_filterMap.mp hv
    obtain ⟨n, hn, rfl⟩ := Option.map_eq_some_iff.mp hv
    exact all_graphNode hp (hnodes n (List.mem_of_getElem? hn))
  have hnodup : (["directed", "multigraph", "graph", "nodes", "edges"] : List Text).Nodup := by decide
  have hkeys : (["directed", "multigraph", "graph", "nodes", "edges"] : List Text).all
      Text.isEncodable := by decide
  have hempty : (Json.object []).all p :=
    Json.all_iff.mpr ⟨hp.object List.nodup_nil rfl, List.forall_mem_nil _⟩
  refine Json.all_iff.mpr ⟨hp.object hnodup hkeys, List.forall_mem_cons.mpr ⟨hp.bool true,
    List.forall_mem_cons.mpr ⟨hp.bool false, List.forall_mem_cons.mpr ⟨hempty,
      List.forall_mem_cons.mpr ⟨Json.all_iff.mpr ⟨hp.list _, hentries⟩,
        List.forall_mem_singleton.mpr (Json.all_iff.mpr ⟨hp.list _, ?_⟩)⟩⟩⟩⟩⟩
  intro v hv
  obtain ⟨e, he, rfl⟩ := List.mem_map.mp hv
  exact all_graphEdge hp (hedges e he)

end Dump

end OntologyStructs
