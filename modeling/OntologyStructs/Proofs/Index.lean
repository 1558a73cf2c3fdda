import Mathlib.Data.List.Induction
import OntologyStructs.Ontology
import OntologyStructs.Proofs.Assoc
import OntologyStructs.Proofs.FirstOccurrences

namespace OntologyStructs

namespace Index

def IsLast (ids : List Text) (id : Text) (p : Nat) : Prop :=
  ids[p]? = some id ∧ ∀ q, p < q → ids[q]? ≠ some id

theorem IsLast.unique {ids : List Text} {id : Text} {p q : Nat} (hp : IsLast ids id p)
    (hq : IsLast ids id q) : p = q := by
  rcases Nat.lt_trichotomy p q with h | h | h
  · exact absurd hq.1 (hp.2 q h)
  · exact h
  · exact absurd hp.1 (hq.2 p h)

theorem isLast_concat (ids : List Text) (a id : Text) (p : Nat) :
    IsLast (ids ++ [a]) id p ↔
      if id = a then p = ids.length else IsLast ids id p := by
  have hlen : (ids ++ [a])[ids.length]? = some a := by simp
  split
  next h =>
    subst h
    have hl : IsLast (ids ++ [id]) id ids.length := by
      refine ⟨hlen, fun q hq ↦ ?_⟩
      rw [List.getElem?_eq_none (by simp; omega)]
      simp
    exact ⟨fun hp ↦ hp.unique hl, fun hp ↦ hp ▸ hl⟩
  next h =>
    -- the new last place is not one of `id`
    have he (q : Nat) : (ids ++ [a])[q]? = some id ↔ ids[q]? = some id := by
      rcases Nat.lt_trichotomy q ids.length with hq | hq | hq
      · rw [List.getElem?_append_left hq]
      · subst hq
        simpa [hlen] using Ne.symm h
      · rw [List.getElem?_eq_none (by simp; omega), List.getElem?_eq_none (by omega)]
    simp only [IsLast, ne_eq, he]

theorem addAll_concat (ix : Index) (i : Nat) (ids : List Text) (a : Text) :
    ix.addAll i (ids ++ [a]) = (ix.addAll i ids).add (i + ids.length) a := by
  induction ids generalizing ix i with
  | nil => rfl
  | cons b ids ih =>
    simp only [List.cons_append, addAll, ih, List.length_cons]
    congr 1
    omega

theorem ofIds_concat (ids : List Text) (a : Text) :
    ofIds (ids ++ [a]) = (ofIds ids).add ids.length a := by
  rw [ofIds, addAll_concat, Nat.zero_add, ofIds]

theorem get?_ofIds (ids : List Text) (id : Text) (p : Nat) :
    (ofIds ids).positions.get? id = some p ↔ IsLast ids id p := by
  induction ids using List.reverseRecOn with
  | nil => simp [ofIds, addAll, empty, Assoc.get?, IsLast]
  | append_singleton ids a ih =>
    rw [ofIds_concat, add, Assoc.get?_insert, isLast_concat]
    split
    · simp [eq_comm]
    · exact ih

theorem keys_ofIds (ids : List Text) : (ofIds ids).positions.keys = ids.eraseDups := by
  induction ids using List.reverseRecOn with
  | nil => rfl
  | append_singleton ids a ih =>
    rw [ofIds_concat, add, Assoc.keys_insert, ih]
    simp only [List.mem_eraseDups]
    split
    next h => rw [List.eraseDups_append_of_subset (by simpa using h)]
    next h =>
      have hr : List.removeAll [a] ids = [a] := by simp [List.removeAll, h]
      rw [List.eraseDups_append, hr]
      rfl

end Index

namespace Ontology

variable (o : Ontology)

theorem position?_eq_some {id : Text} {p : Nat} :
    o.position? id = some p ↔ Index.IsLast (o.nodes.map Node.id) id p := by
  rw [position?, o.index_eq, Index.get?_ofIds]

theorem ids_eq : o.ids = (o.nodes.map Node.id).eraseDups := by
  rw [ids, o.index_eq, Index.keys_ofIds]

theorem nodup_ids : o.ids.Nodup := by
  rw [ids_eq]
  exact List.nodup_eraseDups _

theorem mem_ids {id : Text} : id ∈ o.ids ↔ o.knows id := by
  rw [ids, Assoc.mem_keys_iff id o.index.positions, knows, Option.isSome_iff_exists]
  rfl

theorem knows_iff {id : Text} : o.knows id ↔ ∃ n ∈ o.nodes, n.id = id := by
  rw [← mem_ids, ids_eq, List.mem_eraseDups, List.mem_map]

theorem knows_of_mem {n : Node} (hn : n ∈ o.nodes) : o.knows n.id := o.knows_iff.mpr ⟨n, hn, rfl⟩

theorem mem_positions {id : Text} {p : Nat} :
    (id, p) ∈ o.index.positions ↔ o.position? id = some p :=
  Assoc.mem_iff_get? o.nodup_ids id p

variable {o}

theorem exists_of_position? {id : Text} {p : Nat} (h : o.position? id = some p) :
    ∃ n, o.nodes[p]? = some n ∧ n.id = id := by
  have hp := (o.position?_eq_some.mp h).1
  rw [List.getElem?_map, Option.map_eq_some_iff] at hp
  exact hp

theorem position?_lt {id : Text} {p : Nat} (h : o.position? id = some p) : p < o.nodes.length := by
  obtain ⟨n, hn, -⟩ := exists_of_position? h
  exact (List.getElem?_eq_some_iff.mp hn).1

theorem position?_knows {id : Text} {p : Nat} (h : o.position? id = some p) : o.knows id := by
  rw [knows, h]
  rfl

/-- To go through what is indexed is to go through the identifiers. -/
theorem filterMap_indexed {β : Type} {f : Nat → Node → β} {g : Text → β}
    (h : ∀ p n, o.position? n.id = some p → o.nodes[p]? = some n → f p n = g n.id) :
    o.indexed.filterMap (fun p ↦ (o.nodes[p]?).map (f p)) = o.ids.map g := by
  have hf : ∀ e ∈ o.index.positions, (o.nodes[e.2]?).map (f e.2) = some (g e.1) := by
    rintro ⟨id, p⟩ he
    have hp := o.mem_positions.mp he
    obtain ⟨n, hn, rfl⟩ := exists_of_position? hp
    rw [hn, Option.map_some, h p n hp hn]
  rw [indexed, Assoc.values, List.filterMap_map, ids, Assoc.keys, List.map_map]
  exact (List.filterMap_congr hf).trans (congrFun List.filterMap_eq_map' _)

theorem position?_of_nodup {id : Text} {p : Nat} (hnd : (o.nodes.map Node.id).Nodup) :
    o.position? id = some p ↔ ∃ n, o.nodes[p]? = some n ∧ n.id = id := by
  constructor
  · exact exists_of_position?
  · intro hx
    obtain ⟨n, hn, rfl⟩ := hx
    have hp : (o.nodes.map Node.id)[p]? = some n.id := by rw [List.getElem?_map, hn]; rfl
    refine o.position?_eq_some.mpr ⟨hp, fun q hpq hq ↦ ?_⟩
    obtain ⟨hlt, _⟩ := List.getElem?_eq_some_iff.mp hp
    have heq := (List.getElem?_inj hlt hnd).mp (hp.trans hq.symm)
    omega

end Ontology

end OntologyStructs
