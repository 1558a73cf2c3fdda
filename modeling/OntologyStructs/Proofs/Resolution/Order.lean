import OntologyStructs.Proofs.Resolution.Circles
import OntologyStructs.Proofs.Rounds

namespace OntologyStructs.Ontology

open VisitingOrder

/-- Entries are visited in rounds. Each takes a whole circle of subclass edges, in the order of the
document, once all other superclasses of the circle have been visited, and where several circles may be
taken, the one whose first entry comes first. -/
theorem inheritanceOrder_rounds (o : Ontology)
    (h : ∀ n ∈ o.nodes, n.misreading? .subClassOf = none) :
    ∃ rounds : List (List Nat), o.inheritanceOrder = .ok rounds.flatten ∧
      rounds.flatten.Perm (List.range o.nodes.length) ∧
      (∀ before circle after, rounds = before ++ circle :: after →
        Takes o.Subclass o.nodes.length before.flatten circle) ∧
      (∀ before p after, rounds.flatten = before ++ p :: after →
        ∀ q, o.Subclass p q → ¬ Circle o.Subclass p q → q ∈ before) ∧
      ((∀ p q, o.Subclass p q → q ≤ p) → rounds.flatten = List.range o.nodes.length) := by
  obtain ⟨rounds, hrounds, horder⟩ := visitingOrder_rounds o.superclassLists
  rw [target_superclassLists, length_superclassLists] at hrounds
  have hperm : rounds.flatten.Perm (List.range o.nodes.length) := by
    rw [← horder, ← length_superclassLists]
    exact visitingOrder_perm _
  refine ⟨rounds, horder ▸ o.inheritanceOrder_eq_ok h, hperm, ?_, ?_, ?_⟩
  · intro before circle after hsplit
    exact (hsplit ▸ hrounds).takes fun p q ↦ o.subclass_lt
  · intro before p after hsplit q hpq hcircle
    exact mem_before_of_below (horder.trans hsplit) (.single hpq) fun hqp ↦ hcircle ⟨.single hpq, hqp⟩
  · intro hle
    refine hperm.eq_of_pairwise (fun a b _ _ hab hba ↦ ?_) (hrounds.pairwise_flatten hle).1
      List.pairwise_lt_range
    exact absurd hab (Nat.lt_asymm hba)

theorem farm_rounds : (∀ n ∈ farm.nodes, n.misreading? .subClassOf = none) ∧
    ∃ rounds : List (List Nat), farm.inheritanceOrder = .ok rounds.flatten ∧
      rounds.flatten = [3, 1, 2, 0] ∧
      ∀ before circle after, rounds = before ++ circle :: after →
        Takes farm.Subclass farm.nodes.length before.flatten circle := by
  have hshaped : farm.WellShaped := by decide
  have hreadable : ∀ n ∈ farm.nodes, n.misreading? .subClassOf = none :=
    farm.failure_inheritancePlan.mp hshaped.inheritance
  have hvisits : farm.inheritanceOrder.toOption = some [3, 1, 2, 0] := by decide +kernel
  obtain ⟨rounds, horder, -, htakes, -⟩ := inheritanceOrder_rounds farm hreadable
  rw [horder] at hvisits
  exact ⟨hreadable, rounds, horder, Option.some.inj hvisits, htakes⟩

end OntologyStructs.Ontology
