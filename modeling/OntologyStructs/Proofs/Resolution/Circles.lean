import OntologyStructs.Proofs.Resolution.Closure

namespace OntologyStructs.Ontology

variable {o : Ontology} {P : Progress} {before after : List Nat} {p q : Nat}

section order

variable (horder : visitingOrder o.superclassLists = before ++ p :: after)

include horder

theorem mem_before_of_below (hpq : o.Below p q) (hqp : ¬ o.Below q p) : q ∈ before := by
  have hs := strictlyAbove_of_below hpq hqp
  have hne : q ≠ p := fun e ↦ hqp (e ▸ .refl)
  have hmem : q ∈ before ++ p :: after := by
    rcases hpq.cases_tail with he | ⟨r, _, hr⟩
    · exact absurd he hne
    · exact horder ▸ o.mem_visitingOrder.mpr (o.subclass_lt hr).2
  have hpair := visitingOrder_pairwise o.superclassLists
  rw [horder, List.pairwise_append, List.pairwise_cons] at hpair
  rcases List.mem_append.mp hmem with h | h
  · exact h
  · exact absurd hs (hpair.2.1.1 q ((List.mem_cons.mp h).resolve_left hne))

/-- Entries in a circle are visited in the order of the document. -/
theorem mem_before_iff_lt (hpq : o.Below p q) (hqp : o.Below q p) : q ∈ before ↔ q < p := by
  have hnd := o.nodup_visitingOrder
  rw [horder, List.nodup_append] at hnd
  have hpb : p ∉ before := fun h ↦ hnd.2.2 p h p List.mem_cons_self rfl
  by_cases hne : q = p
  · subst hne
    exact iff_of_false hpb (Nat.lt_irrefl q)
  · -- entries in a circle stand together, and those that stand together are in ascending order
    have habove (a b : Nat) (hab : o.Below a b) (hne : b ≠ a) :
        VisitingOrder.Above o.superclassLists a b := by
      rw [VisitingOrder.Above, target_superclassLists]
      exact (Relation.reflTransGen_iff_eq_or_transGen.mp hab).resolve_left hne
    have hp := habove p q hpq hne
    have hq := habove q p hqp (Ne.symm hne)
    have hascending := visitingOrder_ascending o.superclassLists
    rw [horder, List.pairwise_append, List.pairwise_cons] at hascending
    obtain ⟨-, ⟨hlater, -⟩, hearlier⟩ := hascending
    constructor
    · intro h
      exact hearlier q h p List.mem_cons_self
        ((VisitingOrder.together_iff _).mpr (.inr ⟨hq, hp⟩))
    · intro hlt
      have hmem : q ∈ before ++ p :: after :=
        horder ▸ o.mem_visitingOrder.mpr (Nat.lt_trans hlt (o.mem_visitingOrder.mp (by simp [horder])))
      rcases List.mem_append.mp hmem with h | h
      · exact h
      · have hgt := hlater q ((List.mem_cons.mp h).resolve_left hne)
          ((VisitingOrder.together_iff _).mpr (.inr ⟨hp, hq⟩))
        exact absurd hgt (Nat.lt_asymm hlt)

end order

theorem exists_split (hp : p < o.nodes.length) :
    ∃ before after, visitingOrder o.superclassLists = before ++ p :: after :=
  List.append_of_mem (o.mem_visitingOrder.mpr hp)

theorem listAt_run_inheritancePlan (hok : o.inheritancePlan.failure = none) (h : P.children.Fits o)
    (horder : visitingOrder o.superclassLists = before ++ p :: after) :
    (P.run o.inheritancePlan.steps).children.listAt p =
      (P.children.listAt p ++ (o.superclassesAt p).flatMap fun q ↦
        if q = p then []
        else if q ∈ before then (P.run o.inheritancePlan.steps).children.listAt q
        else P.children.listAt q).eraseDups := by
  have hp : p < o.nodes.length := o.mem_visitingOrder.mp (by simp [horder])
  rw [o.steps_inheritancePlan (o.failure_inheritancePlan.mp hok), horder]
  exact o.listAt_run_visit (horder ▸ o.nodup_visitingOrder) h.length h.distinct hp

theorem due_run_inheritancePlan (h : P.children.Fits o) :
    ∀ p, ∀ id ∈ (P.run o.inheritancePlan.steps).children.listAt p, o.Due P.children p id := by
  refine Progress.run_invariant (fun c ↦ ∀ p, ∀ id ∈ c.listAt p, o.Due P.children p id) ?_
    (within_inheritancePlan h) h.distinct fun p id hid ↦ ⟨p, .refl, hid⟩
  intro Q s hs hw hd
  exact due_apply_inherit (o.inheritStep_inheritancePlan hs) hw hd

/-- What a superclass has when it is visited first reaches its subclass as a whole. -/
theorem subset_of_visited (hok : o.inheritancePlan.failure = none) (h : P.children.Fits o)
    (horder : visitingOrder o.superclassLists = before ++ p :: after) (hpq : o.Subclass p q)
    (hq : q ∈ before) :
    (P.run o.inheritancePlan.steps).children.listAt q ⊆
      (P.run o.inheritancePlan.steps).children.listAt p := by
  have hnd := o.nodup_visitingOrder
  rw [horder, List.nodup_append] at hnd
  have hne : q ≠ p := hnd.2.2 q hq p List.mem_cons_self
  intro id hid
  rw [listAt_run_inheritancePlan hok h horder, List.mem_eraseDups, List.mem_append, List.mem_flatMap]
  exact .inr ⟨q, hpq, by rwa [if_neg hne, if_pos hq]⟩

/-- In one inheritance phase each entry takes over what its superclasses have when it is visited. Those
of other circles have been visited by then, and of its own circle those that stand earlier in the
document have; the rest still have what they had before the phase. -/
theorem inherit_through_circles (s : Session) (hfits : s.children.Fits s.ontology)
    (h : (s.resolve .inheritance).2.result = .ok ()) :
    let o := s.ontology
    let c := s.children
    let d := (s.resolve .inheritance).1.children
    ∃ order, o.inheritanceOrder = .ok order ∧ order.Perm (List.range o.nodes.length) ∧
      (∀ before p after, order = before ++ p :: after →
        d.listAt p = (c.listAt p ++ (o.superclassesAt p).flatMap fun q ↦
          if q = p then [] else if q ∈ before then d.listAt q else c.listAt q).eraseDups ∧
        (∀ q, o.Below p q → ¬ o.Below q p → q ∈ before) ∧
        ∀ q, o.Below p q → o.Below q p → (q ∈ before ↔ q < p)) ∧
      ∀ p, (∀ id ∈ d.listAt p, ∃ q, o.Below p q ∧ id ∈ c.listAt q) ∧
        ∀ q, o.Subclass p q → c.listAt q ⊆ d.listAt p ∧
          (¬ o.Below q p ∨ q < p → d.listAt q ⊆ d.listAt p) := by
  intro o c d
  have hok : o.inheritancePlan.failure = none := (Session.result_resolve s .inheritance).mp h
  have hd : d = (s.progress.run o.inheritancePlan.steps).children :=
    congrArg Progress.children (s.progress_resolve .inheritance)
  refine ⟨_, o.inheritanceOrder_eq_ok (o.failure_inheritancePlan.mp hok), ?_, ?_, fun p ↦ ⟨?_, ?_⟩⟩
  · rw [← length_superclassLists]
    exact visitingOrder_perm _
  · intro before p after horder
    refine ⟨?_, fun q ↦ mem_before_of_below horder, fun q ↦ mem_before_iff_lt horder⟩
    rw [hd]
    exact listAt_run_inheritancePlan (P := s.progress) hok hfits horder
  · rw [hd]
    exact due_run_inheritancePlan (P := s.progress) hfits p
  · intro q hpq
    rw [hd]
    refine ⟨subset_run_inheritancePlan (P := s.progress) hok hfits hpq, fun hq ↦ ?_⟩
    obtain ⟨before, after, horder⟩ := exists_split (o.subclass_lt hpq).1
    apply subset_of_visited (P := s.progress) hok hfits horder hpq
    by_cases hqp : o.Below q p
    · exact (mem_before_iff_lt horder (.single hpq) hqp).mpr (hq.resolve_left (not_not_intro hqp))
    · exact mem_before_of_below horder (.single hpq) hqp

/-- A farm where hens are below a circle of chickens and eggs, which is below all animals. -/
def farm : Ontology := .ofDocument ⟨[], [
  .bare "Hen" [(.subClassOf, ["Hen", "Chicken"])],
  .bare "Chicken" [(.subClassOf, ["Egg", "Animal"])],
  .bare "Egg" [(.subClassOf, ["Gone", "Chicken"])],
  .bare "Animal" []]⟩

def farmSession : Session := ⟨farm, ⟨[["nest"], ["feather"], ["shell"], ["age"]], {}⟩, false⟩

theorem farm_inherits :
    farmSession.children.Fits farm ∧ (farmSession.resolve .inheritance).2.result = .ok () ∧
    (farmSession.resolve .inheritance).1.children.listAt 2 = (["shell", "feather", "age"] : List Text) ∧
    ∃ order, farm.inheritanceOrder = .ok order ∧ order = [3, 1, 2, 0] ∧
      (farmSession.resolve .inheritance).1.children.listAt 2 =
        (farmSession.children.listAt 2 ++ (farm.superclassesAt 2).flatMap fun q ↦
          if q = 2 then []
          else if q ∈ [3, 1] then (farmSession.resolve .inheritance).1.children.listAt q
          else farmSession.children.listAt q).eraseDups ∧
      ∀ q, farm.Subclass 0 q → farmSession.children.listAt q ⊆
        (farmSession.resolve .inheritance).1.children.listAt 0 := by
  have hfits : farmSession.children.Fits farm := ⟨rfl, Children.distinct_of_nodup (by decide)⟩
  have hshaped : farm.WellShaped := by decide
  have h : (farmSession.resolve .inheritance).2.result = .ok () :=
    (Session.result_resolve _ .inheritance).mpr hshaped.inheritance
  have hvisits : farm.inheritanceOrder.toOption = some [3, 1, 2, 0] := by decide +kernel
  obtain ⟨order, horder, -, hlists, hsubsets⟩ := inherit_through_circles farmSession hfits h
  have hfarm : farm.inheritanceOrder = .ok order := horder
  rw [hfarm] at hvisits
  have hvisits : order = [3, 1, 2, 0] := Option.some.inj hvisits
  exact ⟨hfits, h, by decide +kernel, order, hfarm, hvisits, (hlists [3, 1] 2 [0] hvisits).1,
    fun q hq ↦ ((hsubsets 0).2 q hq).1⟩

end OntologyStructs.Ontology
