import OntologyStructs.Ontology.ChildGraph
import OntologyStructs.Proofs.Resolution.Phases

namespace OntologyStructs.Ontology

def childrenOf (o : Ontology) (c : Children) (id : Text) : List Text :=
  (o.position? id).elim [] c.listAt

variable {o : Ontology} {c : Children} {p : Nat} {id : Text}

theorem eq_map_childrenOf (hnd : (o.nodes.map Node.id).Nodup) (hfits : c.Fits o) :
    c = o.nodes.map fun n ↦ o.childrenOf c n.id := by
  apply List.ext_getElem
  · rw [List.length_map, hfits.length]
  · intro p hp hp'
    rw [List.length_map] at hp'
    have hpos : o.position? o.nodes[p].id = some p :=
      (position?_of_nodup hnd).mpr ⟨o.nodes[p], List.getElem?_eq_getElem hp', rfl⟩
    rw [List.getElem_map, childrenOf, hpos, Option.elim_some, Children.listAt,
      List.getD_eq_getElem?_getD, List.getElem?_eq_getElem hp, Option.getD_some]

theorem total_eq_length (hnd : (o.nodes.map Node.id).Nodup) (hfits : c.Fits o) :
    c.total = (o.nodes.flatMap fun n ↦ o.childrenOf c n.id).length := by
  have hc := congrArg List.flatten (eq_map_childrenOf hnd hfits)
  rw [Children.total, hc, List.flatMap_def]

theorem nodup_childrenOf (hfits : c.Fits o) (a : Text) : (o.childrenOf c a).Nodup := by
  rw [childrenOf]
  cases o.position? a with
  | none => exact List.nodup_nil
  | some p => exact hfits.distinct p

theorem childrenOf_eq (h : o.position? id = some p) : o.childrenOf c id = c.listAt p := by
  rw [childrenOf, h, Option.elim_some]

/-- Where only known children are listed, none is left out of the graph. -/
theorem childLists_eq (hc : ∀ p, ∀ id ∈ c.listAt p, o.knows id) :
    o.childLists c = o.ids.map fun id ↦ (id, o.childrenOf c id) := by
  rw [childLists, ids, Assoc.keys, List.map_map]
  apply List.map_congr_left
  rintro ⟨id, p⟩ he
  have hp := childrenOf_eq (c := c) (o.mem_positions.mp he)
  simp only [Function.comp, hp, List.filter_eq_self.mpr (hc p)]

end OntologyStructs.Ontology
