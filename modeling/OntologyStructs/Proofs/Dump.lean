import OntologyStructs.Dump
import OntologyStructs.Proofs.ChildrenOf
import OntologyStructs.Proofs.Digraph
import OntologyStructs.Proofs.Value

namespace OntologyStructs

theorem mapM_map_eq_some {α β γ : Type} {f : α → β} {g : β → Option γ} {h : α → γ} {l : List α}
    (hg : ∀ a ∈ l, g (f a) = some (h a)) : (l.map f).mapM g = some (l.map h) := by
  induction l with
  | nil => rfl
  | cons a l ih =>
    obtain ⟨ha, hl⟩ := List.forall_mem_cons.mp hg
    rw [List.map_cons, List.mapM_cons, ha, ih hl]
    rfl

theorem Assoc.get?_append {α β : Type} [DecidableEq α] {k : α} {l m : Assoc α β}
    (h : k ∉ keys l) : get? k (l ++ m) = get? k m := by
  induction l with
  | nil => rfl
  | cons e l ih =>
    obtain ⟨a, b⟩ := e
    obtain ⟨ha, hl⟩ := not_or.mp (mt List.mem_cons.mpr h)
    rw [List.cons_append, get?, if_neg ha, ih hl]

namespace Node

variable (n : Node) (children : List Text)

theorem get?_toJsonWith_id : (n.toJsonWith children).get? idKey = some (.text n.id) := rfl

theorem childrenKey_notMem_members : childrenKey ∉ Assoc.keys n.members := by
  have hr : ∀ r : Relation, r.key ≠ childrenKey := by
    intro r
    cases r <;> decide
  have hf : childrenKey ∉ [idKey, typesKey, commentKey, labelKey] := by decide
  simp only [Assoc.keys, members, List.map_append, List.mem_append, List.map_filterMap, not_or]
  refine ⟨hf, ?_⟩
  intro h
  obtain ⟨r, _, hk⟩ := List.mem_filterMap.mp h
  cases hv : n.relation r with
  | none => simp [hv] at hk
  | some v =>
    simp only [hv, Option.map_some, Option.some.injEq] at hk
    exact hr r hk

theorem get?_toJsonWith_children : (n.toJsonWith children).get? childrenKey =
    some (.list (children.map .text)) := by
  rw [toJsonWith, Json.get?, Assoc.get?_append n.childrenKey_notMem_members]
  rfl

end Node

namespace Dump

def listed? (v : Json) : Option (List (Text × List Text)) :=
  match v.get? Document.graphKey with
  | some (.list entries) => entries.mapM fun e ↦ do
    return (← (e.get? Node.idKey).bind Json.text?, ← (e.get? Node.childrenKey).bind Json.texts?)
  | _ => none

def lastListed? (v : Json) (id : Text) : Option (List Text) :=
  (listed? v).bind fun entries ↦ entries.reverse.lookup id

def linkedIds? (v : Json) : Option (List Text) :=
  match v.get? "nodes" with
  | some (.list nodes) => nodes.mapM fun e ↦ (e.get? "id").bind Json.text?
  | _ => none

def links? (v : Json) : Option (List (Text × Text)) :=
  match v.get? "edges" with
  | some (.list edges) => edges.mapM fun e ↦ do
    return (← (e.get? "source").bind Json.text?, ← (e.get? "target").bind Json.text?)
  | _ => none

variable {o : Ontology} {c : Children} {p : Nat} {id : Text}

theorem listed?_resolved (o : Ontology) (c : Children) :
    listed? (resolved o c) = some (o.nodes.zipIdx.map fun (n, p) ↦ (n.id, c.listAt p)) := by
  have hg : (resolved o c).get? Document.graphKey =
      some (.list (o.nodes.zipIdx.map fun (n, p) ↦ n.toJsonWith (c.listAt p))) := rfl
  rw [listed?, hg]
  refine mapM_map_eq_some fun (n, p) _ ↦ ?_
  rw [n.get?_toJsonWith_id, n.get?_toJsonWith_children, Option.bind_some, Option.bind_some,
    Json.texts?_eq_some.mpr rfl]
  rfl

theorem lookup_reverse_of_isLast {l : List (Text × List Text)} {children : List Text}
    (h : Index.IsLast (l.map (·.1)) id p) (hp : l[p]? = some (id, children)) :
    l.reverse.lookup id = some children := by
  induction l using List.reverseRecOn with
  | nil => simp at hp
  | append_singleton l e ih =>
    obtain ⟨a, b⟩ := e
    rw [List.map_append, List.map_singleton, Index.isLast_concat] at h
    rw [List.reverse_append, List.reverse_singleton, List.singleton_append, List.lookup_cons]
    by_cases ha : id = a
    · rw [if_pos ha, List.length_map] at h
      subst h
      simp only [List.getElem?_concat_length, Option.some.injEq, Prod.mk.injEq] at hp
      simp [hp]
    · rw [if_neg ha] at h
      have hlt : p < l.length := by
        have := (List.getElem?_eq_some_iff.mp h.1).1
        rwa [List.length_map] at this
      rw [List.getElem?_append_left hlt] at hp
      simpa [beq_eq_false_iff_ne.mpr ha] using ih h hp

theorem lastListed?_resolved (h : o.position? id = some p) :
    lastListed? (resolved o c) id = some (c.listAt p) := by
  rw [lastListed?, listed?_resolved, Option.bind_some]
  obtain ⟨n, hn, rfl⟩ := Ontology.exists_of_position? h
  have hids : (o.nodes.zipIdx.map fun (n, p) ↦ (n.id, c.listAt p)).map (·.1) = o.nodes.map Node.id := by
    rw [List.map_map]
    have hz := congrArg (List.map Node.id) (List.zipIdx_map_fst 0 o.nodes)
    rwa [List.map_map] at hz
  refine lookup_reverse_of_isLast (hids ▸ o.position?_eq_some.mp h) ?_
  simp [List.getElem?_zipIdx, hn]

theorem linkedIds?_nodeLink (o : Ontology) (c : Children) : linkedIds? (nodeLink o c) = some o.ids := by
  have hg : (nodeLink o c).get? "nodes" =
      some (.list (o.indexed.filterMap fun p ↦ (o.nodes[p]?).map graphNode)) := rfl
  have hids : (o.indexed.filterMap (o.nodes[·]?)).map Node.id = o.ids := by
    rw [List.map_filterMap]
    exact (Ontology.filterMap_indexed fun _ _ _ _ ↦ rfl).trans (List.map_id _)
  rw [linkedIds?, hg, ← List.map_filterMap, ← hids]
  exact mapM_map_eq_some fun _ _ ↦ rfl

theorem links?_nodeLink (o : Ontology) (c : Children) : links? (nodeLink o c) = some (o.edges c) := by
  have hg : (nodeLink o c).get? "edges" = some (.list ((o.edges c).map graphEdge)) := rfl
  rw [links?, hg]
  refine (mapM_map_eq_some (h := id) fun e _ ↦ ?_).trans (congrArg some (List.map_id _))
  rfl

end Dump

end OntologyStructs
