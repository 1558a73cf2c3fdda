import OntologyStructs.Proofs.Resolution.Direct
import OntologyStructs.Proofs.VisitingOrder

namespace OntologyStructs

theorem mapM_eq_ok {α β ε : Type} {f : α → Except ε β} {l : List α} {bs : List β} :
    l.mapM f = .ok bs ↔ l.map f = bs.map .ok := by
  induction l generalizing bs with
  | nil => cases bs <;> simp [pure, Except.pure]
  | cons a l ih =>
    rw [List.mapM_cons, List.map_cons]
    cases ha : f a with
    | error e => cases bs <;> simp [bind, Except.bind]
    | ok b =>
      cases hl : l.mapM f with
      | error e =>
        have hn (cs : List β) : l.map f ≠ cs.map .ok := fun h ↦ by
          rw [← ih, hl] at h
          cases h
        cases bs <;> simp [bind, Except.bind, hn]
      | ok cs =>
        have hcs := ih.mp hl
        have hi : Function.Injective (Except.ok : β → Except ε β) := fun _ _ h ↦ by injection h
        cases bs <;> simp [bind, Except.bind, pure, Except.pure, hcs, hi.list_map.eq_iff]

namespace Progress

open ResolutionStep

variable {P Q : Progress} {ss : List ResolutionStep} {p : Nat}

theorem children_run_congr (h : P.children = Q.children) :
    (P.run ss).children = (Q.run ss).children := by
  induction ss generalizing P Q with
  | nil => exact h
  | cons s ss ih =>
    rw [run_cons, run_cons]
    apply ih
    cases hs : s.parent? with
    | none => rw [children_apply_of_none s hs, children_apply_of_none s hs, h]
    | some p => rw [children_apply_of_some s hs, children_apply_of_some s hs, h]

/-- An heir ends with its own children and those of its ancestors. That it may be one of them itself
makes no difference. -/
theorem listAt_run_inherit (as : List Nat) (hp : p < P.children.length) (hd : P.children.Distinct) :
    (P.run (as.map (.inherit p))).children.listAt p =
      (P.children.listAt p ++
        as.flatMap fun a ↦ if a = p then [] else P.children.listAt a).eraseDups := by
  induction as generalizing P with
  | nil => simp [run_nil, (hd p).eraseDups_eq]
  | cons a as ih =>
    have hw : (ResolutionStep.inherit p a).Within P.children.length := by
      intro q hq
      cases hq
      exact hp
    have hothers : ∀ b ∈ as, (if b = p then [] else (apply P (.inherit p a)).children.listAt b) =
        if b = p then [] else P.children.listAt b := by
      intro b _
      split
      · rfl
      next hb => rw [listAt_apply_of_ne (.inherit p a) fun h ↦ hb (Option.some.inj h).symm]
    rw [List.map_cons, run_cons, ih (by rwa [length_apply]) (distinct_apply hw hd),
      List.flatMap_congr hothers, listAt_apply_of_parent hw hd rfl, List.eraseDups_eraseDups_append,
      List.flatMap_cons, ← List.append_assoc, brings]
    apply List.eraseDups_append_congr
    split
    next ha => rw [ha, List.eraseDups_append_of_subset (List.Subset.refl _), List.append_nil]
    · rfl

end Progress

namespace Ontology

variable (o : Ontology) {n : Node} {p q : Nat} {id : Text}

def Subclass (p q : Nat) : Prop := q ∈ o.superclassesAt p

abbrev Below (p q : Nat) : Prop := Relation.ReflTransGen o.Subclass p q

/-- Only an edge from an entry to itself closes a circle of subclass edges. -/
def Acyclic : Prop := ∀ p q, o.Below p q → o.Below q p → p = q

theorem subclass_lt (h : o.Subclass p q) : p < o.nodes.length ∧ q < o.nodes.length := by
  rw [Subclass, superclassesAt] at h
  cases hn : o.nodes[p]? with
  | none => simp [hn] at h
  | some n =>
    simp only [hn, List.mem_filterMap] at h
    obtain ⟨t, _, ht⟩ := h
    exact ⟨(List.getElem?_eq_some_iff.mp hn).1, position?_lt ht⟩

def superclassLists : List (List Nat) :=
  o.nodes.map fun n ↦ (n.targets .subClassOf).filterMap o.position?

@[simp] theorem length_superclassLists : o.superclassLists.length = o.nodes.length := List.length_map _

theorem target_superclassLists : VisitingOrder.Target o.superclassLists = o.Subclass := by
  funext p q
  rw [VisitingOrder.Target, Subclass, superclassesAt, superclassLists, List.getElem?_map]
  cases o.nodes[p]? <;> simp

theorem superclasses_eq_ok (h : n.misreading? .subClassOf = none) :
    o.superclasses n = .ok ((n.targets .subClassOf).filterMap o.position?) := by
  rw [superclasses, Node.targets]
  rw [Node.misreading?] at h
  cases hr : n.relation .subClassOf with
  | none => rfl
  | some v => cases hv : Reference.read v <;> simp_all [Except.map]

theorem superclasses_eq_error {m : Misshapen} (h : n.misreading? .subClassOf = some m) :
    o.superclasses n = .error m := by
  rw [superclasses]
  rw [Node.misreading?] at h
  cases hr : n.relation .subClassOf with
  | none => simp [hr] at h
  | some v => cases hv : Reference.read v <;> simp_all [Except.map]

theorem misreading?_of_superclasses {ps : List Nat} (h : o.superclasses n = .ok ps) :
    n.misreading? .subClassOf = none := by
  rw [superclasses] at h
  rw [Node.misreading?]
  cases hr : n.relation .subClassOf with
  | none => rfl
  | some v => cases hv : Reference.read v <;> simp_all [Except.map]

theorem inheritanceOrder_eq_ok (h : ∀ n ∈ o.nodes, n.misreading? .subClassOf = none) :
    o.inheritanceOrder = .ok (visitingOrder o.superclassLists) := by
  have hm : o.nodes.mapM o.superclasses = .ok o.superclassLists := by
    rw [mapM_eq_ok, superclassLists, List.map_map]
    exact List.map_congr_left fun n hn ↦ o.superclasses_eq_ok (h n hn)
  rw [inheritanceOrder, hm]
  rfl

theorem readable_of_inheritanceOrder {order : List Nat} (h : o.inheritanceOrder = .ok order) :
    ∀ n ∈ o.nodes, n.misreading? .subClassOf = none := by
  intro n hn
  rw [inheritanceOrder] at h
  cases hm : o.nodes.mapM o.superclasses with
  | error m =>
    rw [hm] at h
    cases h
  | ok lists =>
    have hs := List.mem_map_of_mem (f := o.superclasses) hn
    rw [mapM_eq_ok.mp hm] at hs
    obtain ⟨ps, _, hps⟩ := List.mem_map.mp hs
    exact o.misreading?_of_superclasses hps.symm

theorem failure_inheritPlanOf (hp : o.nodes[p]? = some n) :
    (o.inheritPlanOf p).failure = n.misreading? .subClassOf := by
  rw [inheritPlanOf, hp]
  exact o.failure_follow _

theorem failure_inheritPlanOf_of_readable (h : ∀ n ∈ o.nodes, n.misreading? .subClassOf = none)
    (p : Nat) : (o.inheritPlanOf p).failure = none := by
  cases hp : o.nodes[p]? with
  | none => rw [inheritPlanOf, hp]; rfl
  | some n =>
    rw [o.failure_inheritPlanOf hp]
    exact h n (List.mem_of_getElem? hp)

theorem failure_inheritancePlan : o.inheritancePlan.failure = none ↔
    ∀ n ∈ o.nodes, n.misreading? .subClassOf = none := by
  constructor
  · intro h
    rw [inheritancePlan] at h
    cases ho : o.inheritanceOrder with
    | error m => simp [ho] at h
    | ok order => exact o.readable_of_inheritanceOrder ho
  · intro h
    rw [inheritancePlan, o.inheritanceOrder_eq_ok h]
    simp only [Plan.failure_concat, List.forall_mem_map]
    exact fun p _ ↦ o.failure_inheritPlanOf_of_readable h p

def visits (order : List Nat) : List ResolutionStep := order.flatMap fun p ↦ (o.inheritPlanOf p).steps

theorem steps_inheritancePlan (h : ∀ n ∈ o.nodes, n.misreading? .subClassOf = none) :
    o.inheritancePlan.steps = o.visits (visitingOrder o.superclassLists) := by
  rw [inheritancePlan, o.inheritanceOrder_eq_ok h, visits]
  simp only
  rw [Plan.steps_concat, List.flatMap_map]
  simp only [List.forall_mem_map]
  exact fun p _ ↦ o.failure_inheritPlanOf_of_readable h p

theorem steps_inheritPlanOf (p : Nat) : ∃ notes : List ResolutionStep,
    (∀ s ∈ notes, s.parent? = none ∧ s.isAttachment = false) ∧
      (o.inheritPlanOf p).steps = notes ++ (o.superclassesAt p).map (.inherit p) := by
  rw [inheritPlanOf, superclassesAt]
  cases o.nodes[p]? with
  | none => exact ⟨[], by simp, rfl⟩
  | some n =>
    refine ⟨_, ?_, (o.steps_follow _).trans (congrArg _ ?_)⟩
    · simp only [List.mem_map]
      rintro _ ⟨id, _, rfl⟩
      exact ⟨rfl, rfl⟩
    · rw [List.map_filterMap]

structure InheritStep (s : ResolutionStep) : Prop where
  within : s.Within o.nodes.length
  not_attachment : s.isAttachment = false
  inherits : ∀ p, s.parent? = some p → ∃ a, o.Subclass p a ∧ s = .inherit p a

theorem inheritStep_inheritPlanOf {s : ResolutionStep} (hs : s ∈ (o.inheritPlanOf p).steps) :
    o.InheritStep s ∧ ∀ q, s.parent? = some q → q = p := by
  obtain ⟨notes, hnotes, hsteps⟩ := o.steps_inheritPlanOf p
  rw [hsteps] at hs
  rcases List.mem_append.mp hs with hs | hs
  · obtain ⟨hn, ha⟩ := hnotes s hs
    have hnone (q : Nat) : s.parent? ≠ some q := by simp [hn]
    exact ⟨⟨fun q h ↦ absurd h (hnone q), ha, fun q h ↦ absurd h (hnone q)⟩,
      fun q h ↦ absurd h (hnone q)⟩
  · obtain ⟨a, ha, rfl⟩ := List.mem_map.mp hs
    refine ⟨⟨?_, rfl, ?_⟩, ?_⟩
    · intro q hq
      cases hq
      exact (o.subclass_lt ha).1
    · intro q hq
      cases hq
      exact ⟨a, ha, rfl⟩
    · intro q hq
      cases hq
      rfl

theorem inheritStep_inheritancePlan {s : ResolutionStep} (hs : s ∈ o.inheritancePlan.steps) :
    o.InheritStep s := by
  rw [inheritancePlan] at hs
  cases ho : o.inheritanceOrder with
  | error m => simp [ho] at hs
  | ok order =>
    rw [ho] at hs
    obtain ⟨P, hP, hs⟩ := Plan.mem_steps_concat hs
    obtain ⟨p, _, rfl⟩ := List.mem_map.mp hP
    exact (o.inheritStep_inheritPlanOf hs).1

theorem listAt_run_inheritPlanOf {P : Progress} (hp : p < P.children.length)
    (hd : P.children.Distinct) :
    (P.run (o.inheritPlanOf p).steps).children.listAt p =
      (P.children.listAt p ++ (o.superclassesAt p).flatMap fun q ↦
        if q = p then [] else P.children.listAt q).eraseDups := by
  obtain ⟨notes, hnotes, hsteps⟩ := o.steps_inheritPlanOf p
  have hn : (P.run notes).children = P.children := by
    apply Progress.children_run_of_subset
    intro s hs q hq
    simp [(hnotes s hs).1] at hq
  rw [hsteps, Progress.run_append, Progress.children_run_congr hn]
  exact Progress.listAt_run_inherit _ hp hd

section visits

variable {P : Progress} {order before after : List Nat}

theorem within_visits (hlen : P.children.length = o.nodes.length) :
    ∀ s ∈ o.visits order, s.Within P.children.length := by
  intro s hs
  obtain ⟨q, -, hs⟩ := List.mem_flatMap.mp hs
  rw [hlen]
  exact (o.inheritStep_inheritPlanOf hs).1.within

theorem listAt_run_visits_of_notMem (P : Progress) (hq : q ∉ order) :
    (P.run (o.visits order)).children.listAt q = P.children.listAt q := by
  apply Progress.listAt_run_of_ne
  intro s hs h
  obtain ⟨p, hp, hs⟩ := List.mem_flatMap.mp hs
  exact hq ((o.inheritStep_inheritPlanOf hs).2 q h ▸ hp)

theorem run_visits_append :
    P.run (o.visits (before ++ after)) = (P.run (o.visits before)).run (o.visits after) := by
  rw [visits, List.flatMap_append, Progress.run_append]
  rfl

theorem run_visits_cons :
    P.run (o.visits (p :: after)) = (P.run (o.inheritPlanOf p).steps).run (o.visits after) := by
  rw [visits, List.flatMap_cons, Progress.run_append]
  rfl

/-- Children change at no visit but the own one, and what a superclass has then is final if it has been
visited before. -/
theorem listAt_run_visit (hnd : (before ++ p :: after).Nodup)
    (hlen : P.children.length = o.nodes.length) (hd : P.children.Distinct) (hp : p < o.nodes.length) :
    (P.run (o.visits (before ++ p :: after))).children.listAt p =
      (P.children.listAt p ++ (o.superclassesAt p).flatMap fun q ↦
        if q = p then []
        else if q ∈ before then (P.run (o.visits (before ++ p :: after))).children.listAt q
        else P.children.listAt q).eraseDups := by
  obtain ⟨-, hafter, hapart⟩ := List.nodup_append.mp hnd
  have hbefore : p ∉ before := fun h ↦ hapart p h p List.mem_cons_self rfl
  have hw : ∀ s ∈ o.visits before, s.Within P.children.length := o.within_visits hlen
  have hd' := Progress.distinct_run hw hd
  have hp' : p < (P.run (o.visits before)).children.length := by rwa [Progress.length_run, hlen]
  have hread : ∀ q ∈ o.superclassesAt p,
      (if q = p then [] else (P.run (o.visits before)).children.listAt q) =
        if q = p then []
        else if q ∈ before then (P.run (o.visits (before ++ p :: after))).children.listAt q
        else P.children.listAt q := by
    intro q _
    by_cases hq : q ∈ before
    · have hlater : q ∉ p :: after := fun h ↦ hapart q hq q h rfl
      rw [if_pos hq, run_visits_append, o.listAt_run_visits_of_notMem _ hlater]
    · rw [if_neg hq, o.listAt_run_visits_of_notMem P hq]
  rw [← List.flatMap_congr hread, run_visits_append, run_visits_cons,
    o.listAt_run_visits_of_notMem _ (List.nodup_cons.mp hafter).1,
    o.listAt_run_inheritPlanOf hp' hd', o.listAt_run_visits_of_notMem P hbefore]

/-- Where superclasses come first, every entry ends with its own children and the final ones of its
superclasses. -/
theorem listAt_run_order (hnd : order.Nodup) (hpair : order.Pairwise fun p q ↦ ¬ o.Subclass p q)
    (hlen : P.children.length = o.nodes.length) (hd : P.children.Distinct) (hp : p ∈ order)
    (hlt : ∀ q ∈ order, q < o.nodes.length) :
    (P.run (o.visits order)).children.listAt p =
      (P.children.listAt p ++
        (o.superclassesAt p).flatMap (P.run (o.visits order)).children.listAt).eraseDups := by
  have hplt := hlt p hp
  obtain ⟨before, after, rfl⟩ := List.append_of_mem hp
  have hvisit := o.listAt_run_visit hnd hlen hd hplt
  obtain ⟨-, hlater, -⟩ := List.pairwise_append.mp hpair
  have hfinal : ∀ q ∈ o.superclassesAt p,
      (if q = p then []
        else if q ∈ before then (P.run (o.visits (before ++ p :: after))).children.listAt q
        else P.children.listAt q) =
      if q = p then [] else (P.run (o.visits (before ++ p :: after))).children.listAt q := by
    intro q hq
    by_cases hqp : q = p
    · rw [if_pos hqp, if_pos hqp]
    · rw [if_neg hqp, if_neg hqp]
      by_cases hqb : q ∈ before
      · rw [if_pos hqb]
      · -- no superclass comes later, so this one does not come at all
        have hqa : q ∉ after := fun h ↦ (List.pairwise_cons.mp hlater).1 q h hq
        rw [if_neg hqb, o.listAt_run_visits_of_notMem P (by simp [hqb, hqp, hqa])]
  rw [List.flatMap_congr hfinal] at hvisit
  exact (List.eraseDups_append_flatMap_outcome hvisit).symm

end visits

variable {o}

theorem strictlyAbove_of_below (hpq : o.Below p q) (hqp : ¬ o.Below q p) :
    VisitingOrder.StrictlyAbove o.superclassLists p q := by
  rw [VisitingOrder.strictlyAbove_iff, target_superclassLists]
  exact ⟨hpq, hqp⟩

theorem Acyclic.strictlyAbove (h : o.Acyclic) (hne : p ≠ q) (hs : o.Subclass p q) :
    VisitingOrder.StrictlyAbove o.superclassLists p q :=
  strictlyAbove_of_below (.single hs) fun hqp ↦ hne (h p q (.single hs) hqp)

theorem nodup_visitingOrder (o : Ontology) : (visitingOrder o.superclassLists).Nodup :=
  (visitingOrder_perm _).nodup_iff.mpr List.nodup_range

theorem mem_visitingOrder (o : Ontology) :
    p ∈ visitingOrder o.superclassLists ↔ p < o.nodes.length := by
  rw [(visitingOrder_perm _).mem_iff, List.mem_range, length_superclassLists]

theorem Acyclic.pairwise_visitingOrder (h : o.Acyclic) :
    (visitingOrder o.superclassLists).Pairwise fun p q ↦ ¬ o.Subclass p q := by
  have hne := List.nodup_iff_pairwise_ne.mp o.nodup_visitingOrder
  refine (hne.and (visitingOrder_pairwise _)).imp ?_
  rintro p q ⟨hpq, hs⟩ hsub
  exact hs (h.strictlyAbove hpq hsub)

end Ontology

end OntologyStructs
