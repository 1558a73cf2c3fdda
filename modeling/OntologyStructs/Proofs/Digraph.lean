import Mathlib.Data.List.Induction
import OntologyStructs.Ontology.ChildGraph
import OntologyStructs.Proofs.Assoc
import OntologyStructs.Proofs.FirstOccurrences

namespace OntologyStructs

/-- A directed graph that grows: its nodes in the order in which they came, each with the nodes that
it leads to. -/
abbrev Digraph := Assoc Text (List Text)

namespace Digraph

def addNode (g : Digraph) (a : Text) : Digraph := if g.contains a then g else g.insert a []

def next (g : Digraph) (a : Text) : List Text := (g.get? a).getD []

/-- Nodes that are missing come first; an edge that is there stays where it is. -/
def addEdge (g : Digraph) (e : Text × Text) : Digraph :=
  let g := addNode (addNode g e.1) e.2
  if (next g e.1).contains e.2 then g else g.insert e.1 (next g e.1 ++ [e.2])

def edges (g : Digraph) : List (Text × Text) := g.flatMap fun (a, bs) ↦ bs.map fun b ↦ (a, b)

def ofEdges (nodes : List Text) (edges : List (Text × Text)) : Digraph :=
  edges.foldl addEdge (nodes.foldl addNode [])

variable {g : Digraph} {a x : Text} {e : Text × Text} {es : List (Text × Text)}

theorem addNode_of_mem (h : a ∈ g.keys) : addNode g a = g := if_pos ((Assoc.contains_iff a g).mpr h)

theorem addNode_of_notMem (h : a ∉ g.keys) : addNode g a = g.insert a [] :=
  if_neg (mt (Assoc.contains_iff a g).mp h)

theorem next_addNode (g : Digraph) (a x : Text) : next (addNode g a) x = next g x := by
  rw [addNode, Assoc.contains]
  cases ha : g.get? a with
  | some bs => rfl
  | none =>
    rw [Option.isSome_none, if_neg Bool.false_ne_true, next, Assoc.get?_insert]
    split
    next hx => rw [next, hx, ha, Option.getD_some, Option.getD_none]
    · rfl

theorem addEdge_of_mem (ha : e.1 ∈ g.keys) (hb : e.2 ∈ g.keys) :
    addEdge g e = if (next g e.1).contains e.2 then g else g.insert e.1 (next g e.1 ++ [e.2]) := by
  rw [addEdge, addNode_of_mem ha, addNode_of_mem hb]

theorem keys_addEdge (ha : e.1 ∈ g.keys) (hb : e.2 ∈ g.keys) : (addEdge g e).keys = g.keys := by
  rw [addEdge_of_mem ha hb]
  split
  · rfl
  · rw [Assoc.keys_insert, if_pos ha]

theorem next_addEdge (ha : e.1 ∈ g.keys) (hb : e.2 ∈ g.keys) (hn : (next g e.1).Nodup) :
    next (addEdge g e) x = if x = e.1 then (next g x ++ [e.2]).eraseDups else next g x := by
  rw [addEdge_of_mem ha hb]
  by_cases hx : x = e.1
  · subst hx
    rw [if_pos rfl]
    split
    next h =>
      have hmem : e.2 ∈ next g e.1 := List.contains_iff_mem.mp h
      rw [List.eraseDups_append_of_subset (by simpa using hmem), hn.eraseDups_eq]
    next h =>
      have hd : (next g e.1 ++ [e.2]).Nodup := by
        rw [List.nodup_append_comm, List.singleton_append, List.nodup_cons]
        exact ⟨mt List.contains_iff_mem.mpr h, hn⟩
      rw [hd.eraseDups_eq, next, Assoc.get?_insert, if_pos rfl, Option.getD_some]
  · rw [if_neg hx]
    split
    · rfl
    · rw [next, Assoc.get?_insert, if_neg hx, next]

/-- Each node leads to what its edges lead to, in the order in which that first came. -/
theorem next_addEdges (hes : ∀ e ∈ es, e.1 ∈ g.keys ∧ e.2 ∈ g.keys) (hn : ∀ x, (next g x).Nodup) :
    (es.foldl addEdge g).keys = g.keys ∧ ∀ x, next (es.foldl addEdge g) x =
      (next g x ++ (es.filter fun e ↦ x = e.1).map (·.2)).eraseDups := by
  induction es generalizing g with
  | nil =>
    refine ⟨rfl, fun x ↦ ?_⟩
    rw [List.filter_nil, List.map_nil, List.append_nil, (hn x).eraseDups_eq]
    rfl
  | cons e es ih =>
    obtain ⟨⟨ha, hb⟩, hes⟩ := List.forall_mem_cons.mp hes
    have hk := keys_addEdge ha hb
    have hx (x : Text) := @next_addEdge g x e ha hb (hn e.1)
    obtain ⟨hkeys, hnext⟩ := ih (g := addEdge g e) (by rwa [hk]) (fun x ↦ by
      rw [hx]
      split
      · exact List.nodup_eraseDups _
      · exact hn x)
    refine ⟨hkeys.trans hk, fun x ↦ ?_⟩
    rw [List.foldl_cons, hnext, hx, List.filter_cons]
    by_cases h : x = e.1
    · simp only [h, if_true, decide_true, List.map_cons, List.eraseDups_eraseDups_append,
        List.append_assoc, List.singleton_append]
    · simp only [h, if_false, decide_false, Bool.false_eq_true]

theorem addNodes (nodes : List Text) (hn : nodes.Nodup) :
    (nodes.foldl addNode []).keys = nodes ∧ ∀ x, next (nodes.foldl addNode []) x = [] := by
  induction nodes using List.reverseRecOn with
  | nil => exact ⟨rfl, fun _ ↦ rfl⟩
  | append_singleton nodes a ih =>
    rw [List.nodup_append_comm, List.singleton_append, List.nodup_cons] at hn
    obtain ⟨hkeys, hnext⟩ := ih hn.2
    rw [List.foldl_append, List.foldl_cons, List.foldl_nil]
    refine ⟨?_, fun x ↦ ?_⟩
    · rw [addNode_of_notMem (by rw [hkeys]; exact hn.1), Assoc.keys_insert, hkeys, if_neg hn.1]
    · rw [next_addNode, hnext]

theorem edges_eq (hk : g.keys.Nodup) :
    edges g = g.keys.flatMap fun a ↦ (next g a).map fun b ↦ (a, b) := by
  rw [edges, Assoc.keys, List.flatMap_map]
  apply List.flatMap_congr
  rintro ⟨a, bs⟩ he
  rw [next, (Assoc.mem_iff_get? hk a bs).mp he, Option.getD_some]

theorem filter_pairs {l : List Text} (f : Text → List Text) (hl : l.Nodup) (hx : x ∈ l) :
    ((l.flatMap fun a ↦ (f a).map fun b ↦ (a, b)).filter fun e ↦ x = e.1).map (·.2) = f x := by
  induction l with
  | nil => cases hx
  | cons a l ih =>
    obtain ⟨ha, hl⟩ := List.nodup_cons.mp hl
    rw [List.flatMap_cons, List.filter_append, List.map_append]
    by_cases h : x = a
    · subst h
      have hfirst : ((f x).map fun b ↦ (x, b)).filter (fun e ↦ x = e.1) =
          (f x).map fun b ↦ (x, b) := by
        rw [List.filter_eq_self]
        exact List.forall_mem_map.mpr fun _ _ ↦ decide_eq_true rfl
      have hrest : (l.flatMap fun a ↦ (f a).map fun b ↦ (a, b)).filter (fun e ↦ x = e.1) = [] := by
        rw [List.filter_eq_nil_iff]
        intro e he hxe
        obtain ⟨a, hal, he⟩ := List.mem_flatMap.mp he
        obtain ⟨b, _, rfl⟩ := List.mem_map.mp he
        exact ha (of_decide_eq_true hxe ▸ hal)
      rw [hfirst, hrest, List.map_map, List.map_nil, List.append_nil]
      exact List.map_id' _
    · have hfirst : ((f a).map fun b ↦ (a, b)).filter (fun e ↦ x = e.1) = [] := by
        rw [List.filter_eq_nil_iff]
        exact List.forall_mem_map.mpr fun _ _ hxa ↦ h (of_decide_eq_true hxa)
      rw [hfirst, List.map_nil, List.nil_append]
      exact ih hl ((List.mem_cons.mp hx).resolve_left h)

/-- Edges that come grouped, and none of them twice, stay as they are. -/
theorem edges_ofEdges {nodes : List Text} (f : Text → List Text) (hn : nodes.Nodup)
    (hf : ∀ a ∈ nodes, (f a).Nodup ∧ f a ⊆ nodes) :
    (ofEdges nodes (nodes.flatMap fun a ↦ (f a).map fun b ↦ (a, b))).keys = nodes ∧
      edges (ofEdges nodes (nodes.flatMap fun a ↦ (f a).map fun b ↦ (a, b))) =
        nodes.flatMap fun a ↦ (f a).map fun b ↦ (a, b) := by
  obtain ⟨hkeys, hnext⟩ := addNodes nodes hn
  have hmem : ∀ e ∈ nodes.flatMap fun a ↦ (f a).map fun b ↦ (a, b),
      e.1 ∈ (nodes.foldl addNode []).keys ∧ e.2 ∈ (nodes.foldl addNode []).keys := by
    intro e he
    obtain ⟨a, ha, he⟩ := List.mem_flatMap.mp he
    obtain ⟨b, hb, rfl⟩ := List.mem_map.mp he
    rw [hkeys]
    exact ⟨ha, (hf a ha).2 hb⟩
  obtain ⟨hkeys', hnext'⟩ := next_addEdges hmem fun x ↦ by rw [hnext]; exact List.nodup_nil
  rw [hkeys] at hkeys'
  refine ⟨hkeys', ?_⟩
  rw [ofEdges, edges_eq (hkeys'.symm ▸ hn), hkeys']
  apply List.flatMap_congr
  intro a ha
  rw [hnext', hnext, List.nil_append, filter_pairs f hn ha, (hf a ha).1.eraseDups_eq]

end Digraph

end OntologyStructs
