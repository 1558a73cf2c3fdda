import OntologyStructs.Proofs.Resolution.Phases

namespace OntologyStructs

def Node.bare (id : Text) (relations : List (Relation × List Text)) : Node where
  id := id
  types := ⟨[], []⟩
  comment := .empty
  label := .empty
  relation r := (relations.lookup r).map fun ids ↦ .list (ids.map .text)

namespace Ontology

variable {o : Ontology} {leaveOut : Bool} {c : Children} {p : Nat}

/-- Without circles, the inheritance of an entry is complete after one run. -/
theorem listAt_after_inheritance (leaveOut : Bool) (hc : o.Acyclic)
    (hok : o.inheritancePlan.failure = none) (h : c.Fits o) (p : Nat) :
    (o.after leaveOut .inheritance c).listAt p =
      (c.listAt p ++
        (o.superclassesAt p).flatMap (o.after leaveOut .inheritance c).listAt).eraseDups := by
  by_cases hp : p < o.nodes.length
  · have hafter : o.after leaveOut .inheritance c =
        (Progress.run ⟨c, {}⟩ (o.visits (visitingOrder o.superclassLists))).children := by
      rw [after_eq, ← o.steps_inheritancePlan (o.failure_inheritancePlan.mp hok)]
      rfl
    rw [hafter]
    exact o.listAt_run_order (P := ⟨c, {}⟩) o.nodup_visitingOrder hc.pairwise_visitingOrder h.length
      h.distinct (o.mem_visitingOrder.mpr hp) (fun q hq ↦ o.mem_visitingOrder.mp hq)
  · have hlen := (fits_after leaveOut .inheritance h).length
    have hs : o.superclassesAt p = [] := by
      rw [superclassesAt, List.getElem?_eq_none (by omega)]
    rw [Children.listAt_of_le (by omega), Children.listAt_of_le (by rw [h.length]; omega), hs]
    rfl

theorem saturated_after_inheritance (hc : o.Acyclic) (hok : o.inheritancePlan.failure = none)
    (h : c.Fits o) (hD : ∀ p, (o.directChildren leaveOut).listAt p ⊆ c.listAt p) :
    o.Saturated leaveOut (o.after leaveOut .inheritance c) := by
  have heq := listAt_after_inheritance leaveOut hc hok h
  constructor
  · intro p id hid
    rw [heq p, List.mem_eraseDups]
    exact List.mem_append_left _ (hD p hid)
  · intro p q hpq id hid
    rw [heq p, List.mem_eraseDups]
    exact List.mem_append_right _ (List.mem_flatMap.mpr ⟨q, hpq, hid⟩)

theorem mem_iff_due_of_resolve (hc : o.Acyclic) {r : Resolved}
    (h : (o.resolve leaveOut).result = .ok r) {id : Text} :
    id ∈ r.children.listAt p ↔ o.Due (o.directChildren leaveOut) p id := by
  obtain ⟨_, hok, _⟩ := resolve_eq_ok.mp h
  have hsat : o.Saturated leaveOut r.children := by
    rw [children_of_resolve h]
    exact saturated_after_inheritance hc hok (o.fits_directChildren leaveOut) fun _ _ hid ↦ hid
  exact hsat.mem_iff_due fun _ _ hid ↦ due_of_resolve h hid

/-- Inheritance reaches down chains of any length, although each entry takes over from its own
superclasses only: those have been completed before it, wherever they stand. -/
theorem resolve_inheritance_closure (hc : o.Acyclic) {r : Resolved}
    (h : (o.resolve leaveOut).result = .ok r) (p : Nat) :
    (∀ id, id ∈ r.children.listAt p ↔
      ∃ q, o.Below p q ∧ id ∈ (o.directChildren leaveOut).listAt q) ∧
    r.children.listAt p = ((o.directChildren leaveOut).listAt p ++
      (o.superclassesAt p).flatMap r.children.listAt).eraseDups := by
  refine ⟨fun id ↦ mem_iff_due_of_resolve hc h, ?_⟩
  obtain ⟨_, hok, _⟩ := resolve_eq_ok.mp h
  rw [children_of_resolve h]
  exact listAt_after_inheritance leaveOut hc hok (o.fits_directChildren leaveOut) p

theorem acyclic_of_rank (rank : Nat → Nat)
    (h : ∀ p q, o.Subclass p q → p ≠ q → rank p < rank q) : o.Acyclic := by
  have hb : ∀ p q, o.Below p q → p = q ∨ rank p < rank q := by
    intro p q hpq
    induction hpq with
    | refl => exact .inl rfl
    | @tail a b _ hab ih =>
      by_cases hne : a = b
      · exact hne ▸ ih
      · have hlt := h a b hab hne
        rcases ih with rfl | ih
        · exact .inr hlt
        · exact .inr (Nat.lt_trans ih hlt)
  intro p q hpq hqp
  rcases hb p q hpq with rfl | hlt
  · rfl
  · exact (hb q p hqp).elim Eq.symm fun hgt ↦ absurd hgt (Nat.lt_asymm hlt)

/-- A vocabulary of restaurants: one entry comes twice, one is its own superclass, and one target is
not there. -/
def restaurants : Ontology := .ofDocument ⟨[], [
  .bare "Restaurant" [(.subClassOf, ["LocalBusiness"])],
  .bare "LocalBusiness" [(.subClassOf, ["LocalBusiness", "Thing", "Elsewhere"])],
  .bare "Thing" [],
  .bare "name" [(.domainIncludes, ["Thing"])],
  .bare "openingHours" [(.domainIncludes, ["LocalBusiness"])],
  .bare "Thing" []]⟩

theorem acyclic_restaurants : restaurants.Acyclic := by
  apply acyclic_of_rank id
  intro p q hpq
  have hp : p < 6 := (restaurants.subclass_lt hpq).1
  have h : ∀ p < 6, ∀ q ∈ restaurants.superclassesAt p, p ≠ q → p < q := by decide
  exact h p hp q hpq

theorem restaurants_closure : restaurants.Acyclic ∧
    ∃ r, (restaurants.resolve false).result = .ok r ∧
      r.children.listAt 0 = (["openingHours", "name"] : List Text) ∧
      (∀ id, id ∈ r.children.listAt 0 ↔
        ∃ q, restaurants.Below 0 q ∧ id ∈ (restaurants.directChildren false).listAt q) ∧
      r.children.listAt 0 = ((restaurants.directChildren false).listAt 0 ++
        (restaurants.superclassesAt 0).flatMap r.children.listAt).eraseDups := by
  have hr : (restaurants.resolve false).result.toOption.map (fun r ↦ r.children.listAt 0) =
      some (["openingHours", "name"] : List Text) := by decide +kernel
  cases h : (restaurants.resolve false).result with
  | error m => simp [h, Except.toOption] at hr
  | ok r =>
    simp only [h, Except.toOption, Option.map_some, Option.some.injEq] at hr
    exact ⟨acyclic_restaurants, r, rfl, hr, resolve_inheritance_closure acyclic_restaurants h 0⟩

end Ontology

end OntologyStructs
