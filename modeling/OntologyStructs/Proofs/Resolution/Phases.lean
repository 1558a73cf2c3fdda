import OntologyStructs.Proofs.Resolution.Inheritance

namespace OntologyStructs

/-- There is a list of children for each entry, and no child comes twice in it. -/
structure Children.Fits (c : Children) (o : Ontology) : Prop where
  length : c.length = o.nodes.length
  distinct : c.Distinct

namespace Session

variable (s : Session) (phase : Phase)

theorem progress_resolve : (s.resolve phase).1.progress = s.progress.run (s.plan phase).steps := by
  rw [resolve]
  cases (s.plan phase).failure <;> rfl

theorem result_resolve : (s.resolve phase).2.result = .ok () ↔ (s.plan phase).failure = none := by
  rw [resolve]
  cases (s.plan phase).failure <;> simp

theorem result_resolve_of_failure {m : Misshapen} (h : (s.plan phase).failure = some m) :
    (s.resolve phase).2.result = .error m := by
  rw [resolve]
  simp only [h]

theorem mem_steps_plan {step : ResolutionStep} (h : step ∈ (s.plan phase).steps) :
    step ∈ (s.ontology.directPlan s.leaveOut).steps ∨ step ∈ s.ontology.inheritancePlan.steps := by
  cases phase with
  | direct => exact .inl h
  | inheritance => exact .inr h
  | whole => exact Plan.mem_steps_followedBy h

/-- Where there is a list of children for each entry, all steps lead to one that is there. -/
theorem within_plan (h : s.children.length = s.ontology.nodes.length) :
    ∀ step ∈ (s.plan phase).steps, step.Within s.children.length := by
  rw [h]
  intro step hs
  rcases s.mem_steps_plan phase hs with hs | hs
  · exact (s.ontology.directStep_directPlan s.leaveOut hs).within
  · exact (s.ontology.inheritStep_inheritancePlan hs).within

/-- What the counters gain in a phase is what the children gain, however far it goes. -/
theorem total_resolve (h : s.children.length = s.ontology.nodes.length) :
    (s.resolve phase).1.counters.total + s.children.total =
      s.counters.total + (s.resolve phase).1.children.total := by
  simp only [counters, children, progress_resolve]
  exact Progress.total_run (s.within_plan phase h)

end Session

namespace Ontology

variable {o : Ontology} {leaveOut : Bool} {P : Progress} {D c : Children} {p q : Nat} {id : Text}

theorem fits_start (o : Ontology) (leaveOut : Bool) : (Session.start o leaveOut).children.Fits o :=
  ⟨Children.length_ofSize _, Children.distinct_ofSize _⟩

theorem within_directPlan (h : P.children.Fits o) :
    ∀ s ∈ (o.directPlan leaveOut).steps, s.Within P.children.length :=
  Session.within_plan ⟨o, P, leaveOut⟩ .direct h.length

theorem within_inheritancePlan (h : P.children.Fits o) :
    ∀ s ∈ o.inheritancePlan.steps, s.Within P.children.length :=
  Session.within_plan ⟨o, P, false⟩ .inheritance h.length

theorem fits_run_direct (h : P.children.Fits o) : (P.run (o.directPlan leaveOut).steps).children.Fits o :=
  ⟨Progress.length_run.trans h.length, Progress.distinct_run (within_directPlan h) h.distinct⟩

theorem mem_run_directPlan (h : P.children.Fits o) :
    id ∈ (P.run (o.directPlan leaveOut).steps).children.listAt q ↔
      id ∈ P.children.listAt q ∨ (o.directPlan leaveOut).Gives q id :=
  Progress.mem_run_direct (fun _ hs ↦ (o.directStep_directPlan leaveOut hs).not_inherit)
    (within_directPlan h) h.distinct

variable (o leaveOut) in
def directProgress : Progress := ((Session.start o leaveOut).resolve .direct).1.progress

variable (o leaveOut) in
def directChildren : Children := (o.directProgress leaveOut).children

theorem directProgress_eq : o.directProgress leaveOut =
    (Session.start o leaveOut).progress.run (o.directPlan leaveOut).steps :=
  Session.progress_resolve _ .direct

theorem fits_directChildren (o : Ontology) (leaveOut : Bool) :
    (o.directChildren leaveOut).Fits o := by
  rw [directChildren, directProgress_eq]
  exact fits_run_direct (o.fits_start leaveOut)

theorem mem_directChildren :
    id ∈ (o.directChildren leaveOut).listAt q ↔ (o.directPlan leaveOut).Gives q id := by
  rw [directChildren, directProgress_eq, mem_run_directPlan (o.fits_start leaveOut)]
  simp [Session.start]

theorem progress_whole (hd : (o.directPlan leaveOut).failure = none) :
    ((Session.start o leaveOut).resolve .whole).1.progress =
      (o.directProgress leaveOut).run o.inheritancePlan.steps := by
  rw [Session.progress_resolve, directProgress_eq, ← Progress.run_append]
  exact congrArg _ (Plan.steps_followedBy hd)

theorem resolve_eq_ok {r : Resolved} : (o.resolve leaveOut).result = .ok r ↔
    (o.directPlan leaveOut).failure = none ∧ o.inheritancePlan.failure = none ∧
      r = ⟨o, ((o.directProgress leaveOut).run o.inheritancePlan.steps).children,
        ((o.directProgress leaveOut).run o.inheritancePlan.steps).counters⟩ := by
  have hr : ((Session.start o leaveOut).resolve .whole).2.result = .ok () ↔
      (o.directPlan leaveOut).failure = none ∧ o.inheritancePlan.failure = none :=
    (Session.result_resolve _ .whole).trans Plan.failure_followedBy
  rw [resolve]
  cases hres : ((Session.start o leaveOut).resolve .whole).2.result with
  | error m =>
    simp only [hres, reduceCtorEq, false_iff] at hr
    simp only [hres, Except.map, reduceCtorEq, false_iff]
    exact fun ⟨hd, hi, _⟩ ↦ hr ⟨hd, hi⟩
  | ok u =>
    obtain ⟨hd, hi⟩ := hr.mp hres
    simp only [hres, Except.map, Except.ok.injEq, Session.children, Session.counters,
      progress_whole hd]
    exact ⟨fun h ↦ ⟨hd, hi, h.symm⟩, fun h ↦ h.2.2.symm⟩

variable (o D) in
/-- What an entry is due: the children in `D` of all that it is below. -/
def Due (p : Nat) (id : Text) : Prop := ∃ q, o.Below p q ∧ id ∈ D.listAt q

theorem Due.of_subclass (h : o.Subclass p q) (hq : o.Due D q id) : o.Due D p id := by
  obtain ⟨a, hqa, ha⟩ := hq
  exact ⟨a, .head h hqa, ha⟩

theorem mem_of_due (hD : ∀ p, D.listAt p ⊆ c.listAt p)
    (hsub : ∀ p q, o.Subclass p q → c.listAt q ⊆ c.listAt p) (h : o.Due D p id) :
    id ∈ c.listAt p := by
  obtain ⟨q, hpq, hid⟩ := h
  induction hpq using Relation.ReflTransGen.head_induction_on with
  | refl => exact hD _ hid
  | head hs _ ih => exact hsub _ _ hs ih

variable (o) in
def WellShaped : Prop := ∀ n ∈ o.nodes,
  ∀ r ∈ [Relation.subPropertyOf, .domainIncludes, .rangeIncludes, .subClassOf], n.misreading? r = none

instance : Decidable o.WellShaped :=
  decidable_of_iff (∀ n ∈ o.nodes,
    ∀ r ∈ [Relation.subPropertyOf, .domainIncludes, .rangeIncludes, .subClassOf],
      (n.misreading? r).isNone) (by simp only [WellShaped, Option.isNone_iff_eq_none])

theorem WellShaped.direct (h : o.WellShaped) : (o.directPlan leaveOut).failure = none := by
  rw [failure_directPlan]
  intro n hn
  have hr := h n hn
  simp only [List.mem_cons, List.not_mem_nil, or_false, forall_eq_or_imp, forall_eq] at hr
  exact ⟨.inr ⟨hr.1, hr.2.1⟩, hr.2.2.1⟩

theorem WellShaped.inheritance (h : o.WellShaped) : o.inheritancePlan.failure = none := by
  rw [failure_inheritancePlan]
  exact fun n hn ↦ h n hn .subClassOf (by simp)

variable (o leaveOut) in
/-- A resolver that has counted nothing yet, at work on children that may be there already. -/
def sessionOn (c : Children) : Session := ⟨o, ⟨c, {}⟩, leaveOut⟩

variable (o leaveOut) in
def after (phase : Phase) (c : Children) : Children :=
  ((o.sessionOn leaveOut c).resolve phase).1.children

theorem after_eq (phase : Phase) : o.after leaveOut phase c =
    (Progress.run ⟨c, {}⟩ ((o.sessionOn leaveOut c).plan phase).steps).children := by
  rw [after, Session.children, Session.progress_resolve]
  rfl

theorem children_of_resolve {r : Resolved} (h : (o.resolve leaveOut).result = .ok r) :
    r.children = o.after leaveOut .inheritance (o.directChildren leaveOut) := by
  obtain ⟨-, -, rfl⟩ := resolve_eq_ok.mp h
  rw [after_eq]
  exact Progress.children_run_congr rfl

theorem resolve_ok (leaveOut : Bool) (hw : o.WellShaped) :
    ∃ r, (o.resolve leaveOut).result = .ok r ∧
      r.children = o.after leaveOut .inheritance (o.directChildren leaveOut) := by
  have hd : (o.directPlan leaveOut).failure = none := hw.direct
  have hr := resolve_eq_ok.mpr ⟨hd, hw.inheritance, rfl⟩
  exact ⟨_, hr, children_of_resolve hr⟩

theorem after_whole (h : o.WellShaped) :
    o.after leaveOut .whole c = o.after leaveOut .inheritance (o.after leaveOut .direct c) := by
  rw [after_eq, after_eq, after_eq]
  have hs : ((o.sessionOn leaveOut c).plan .whole).steps =
      (o.directPlan leaveOut).steps ++ o.inheritancePlan.steps := Plan.steps_followedBy h.direct
  rw [hs, Progress.run_append]
  exact Progress.children_run_congr rfl

theorem within_plan (leaveOut : Bool) (phase : Phase) (h : c.Fits o) :
    ∀ s ∈ ((o.sessionOn leaveOut c).plan phase).steps, s.Within c.length :=
  (o.sessionOn leaveOut c).within_plan phase h.length

theorem fits_after (leaveOut : Bool) (phase : Phase) (h : c.Fits o) : (o.after leaveOut phase c).Fits o := by
  rw [after_eq]
  exact ⟨Progress.length_run.trans h.length, Progress.distinct_run (within_plan leaveOut phase h) h.distinct⟩

theorem subset_after (leaveOut : Bool) (phase : Phase) (h : c.Fits o) (p : Nat) :
    c.listAt p ⊆ (o.after leaveOut phase c).listAt p := by
  rw [after_eq]
  exact (Progress.prefix_run (P := ⟨c, {}⟩) (within_plan leaveOut phase h) h.distinct p).subset

variable (o leaveOut) in
/-- All that the phases could add is there: direct children, and those of superclasses. -/
structure Saturated (c : Children) : Prop where
  direct : ∀ p, (o.directChildren leaveOut).listAt p ⊆ c.listAt p
  inherits : ∀ p q, o.Subclass p q → c.listAt q ⊆ c.listAt p

theorem Saturated.direct_steps (h : o.Saturated leaveOut c) :
    ∀ s ∈ (o.directPlan leaveOut).steps, ∀ p, s.parent? = some p → s.brings c ⊆ c.listAt p := by
  intro s hs p hp id hid
  have hb := ResolutionStep.brings_eq (o.directStep_directPlan leaveOut hs).not_inherit c []
  exact h.direct p (mem_directChildren.mpr ⟨s, hs, hp, hb ▸ hid⟩)

theorem Saturated.inheritance_steps (h : o.Saturated leaveOut c) :
    ∀ s ∈ o.inheritancePlan.steps, ∀ p, s.parent? = some p → s.brings c ⊆ c.listAt p := by
  intro s hs p hp
  obtain ⟨a, ha, rfl⟩ := (o.inheritStep_inheritancePlan hs).inherits p hp
  exact h.inherits p a ha

theorem Saturated.after_eq_self (h : o.Saturated leaveOut c) (phase : Phase) :
    o.after leaveOut phase c = c := by
  rw [after_eq]
  apply Progress.children_run_of_subset
  intro s hs
  rcases Session.mem_steps_plan _ phase hs with hs | hs
  · exact h.direct_steps s hs
  · exact h.inheritance_steps s hs

theorem mem_after_direct (h : c.Fits o) :
    id ∈ (o.after leaveOut .direct c).listAt p ↔
      id ∈ c.listAt p ∨ id ∈ (o.directChildren leaveOut).listAt p := by
  rw [after_eq, mem_directChildren]
  exact mem_run_directPlan h

/-- However superclasses are visited, an entry takes over at least what they had before. -/
theorem subset_run_inheritancePlan (hok : o.inheritancePlan.failure = none) (h : P.children.Fits o)
    (hpq : o.Subclass p q) :
    P.children.listAt q ⊆ (P.run o.inheritancePlan.steps).children.listAt p := by
  intro id hid
  have hs : ResolutionStep.inherit p q ∈ o.inheritancePlan.steps := by
    rw [o.steps_inheritancePlan (o.failure_inheritancePlan.mp hok), visits, List.mem_flatMap]
    obtain ⟨notes, _, hp⟩ := o.steps_inheritPlanOf p
    refine ⟨p, o.mem_visitingOrder.mpr (o.subclass_lt hpq).1, ?_⟩
    rw [hp]
    exact List.mem_append_right _ (List.mem_map_of_mem hpq)
  exact Progress.mem_run_of_inherit hs (within_inheritancePlan h) h.distinct hid

theorem inherited_after (leaveOut : Bool) (hw : o.WellShaped) (h : c.Fits o) (hpq : o.Subclass p q) :
    c.listAt q ⊆ (o.after leaveOut .inheritance c).listAt p := by
  rw [after_eq]
  exact subset_run_inheritancePlan (P := ⟨c, {}⟩) hw.inheritance h hpq

theorem due_apply_inherit {s : ResolutionStep} (hs : o.InheritStep s)
    (hw : s.Within P.children.length) (hd : P.children.Distinct)
    (hP : ∀ p, ∀ id ∈ P.children.listAt p, o.Due D p id) :
    ∀ p, ∀ id ∈ (s.apply P).children.listAt p, o.Due D p id := by
  intro p id hid
  rcases (ResolutionStep.mem_apply hw hd).mp hid with hid | ⟨hp, hid⟩
  · exact hP p id hid
  · obtain ⟨a, ha, rfl⟩ := hs.inherits p hp
    exact (hP a id hid).of_subclass ha

theorem due_after (phase : Phase) (h : c.Fits o)
    (hdue : ∀ p, ∀ id ∈ c.listAt p, o.Due (o.directChildren leaveOut) p id) :
    ∀ p, ∀ id ∈ (o.after leaveOut phase c).listAt p, o.Due (o.directChildren leaveOut) p id := by
  rw [after_eq]
  refine Progress.run_invariant
    (fun c ↦ ∀ p, ∀ id ∈ c.listAt p, o.Due (o.directChildren leaveOut) p id) ?_
    (within_plan leaveOut phase h) h.distinct hdue
  intro P s hs hw hd hP
  rcases Session.mem_steps_plan _ phase hs with hs | hs
  · intro p id hid
    rcases (ResolutionStep.mem_apply hw hd).mp hid with hid | ⟨hp, hid⟩
    · exact hP p id hid
    · rw [ResolutionStep.brings_eq (o.directStep_directPlan leaveOut hs).not_inherit _ []] at hid
      exact ⟨p, .refl, mem_directChildren.mpr ⟨s, hs, hp, hid⟩⟩
  · exact due_apply_inherit (o.inheritStep_inheritancePlan hs) hw hd hP

theorem Saturated.mem_iff_due (h : o.Saturated leaveOut c)
    (hdue : ∀ p, ∀ id ∈ c.listAt p, o.Due (o.directChildren leaveOut) p id) :
    id ∈ c.listAt p ↔ o.Due (o.directChildren leaveOut) p id :=
  ⟨hdue p id, mem_of_due h.direct h.inherits⟩

section resolved

variable {r : Resolved} (h : (o.resolve leaveOut).result = .ok r)

include h

theorem ontology_of_resolve : r.ontology = o := by
  obtain ⟨-, -, rfl⟩ := resolve_eq_ok.mp h
  rfl

theorem fits_of_resolve : r.children.Fits o := by
  rw [children_of_resolve h]
  exact fits_after leaveOut .inheritance (o.fits_directChildren leaveOut)

theorem due_of_resolve (hid : id ∈ r.children.listAt p) :
    o.Due (o.directChildren leaveOut) p id := by
  rw [children_of_resolve h] at hid
  exact due_after .inheritance (o.fits_directChildren leaveOut) (fun p _ hp ↦ ⟨p, .refl, hp⟩) p id hid

theorem knows_of_resolve (hid : id ∈ r.children.listAt p) : o.knows id := by
  obtain ⟨q, _, hq⟩ := due_of_resolve h hid
  obtain ⟨s, hs, hp, hb⟩ := mem_directChildren.mp hq
  exact (o.directStep_directPlan leaveOut hs).knows q hp id hb

end resolved

variable (o leaveOut) in
def AddsNothing (c : Children) : Prop :=
  ((o.sessionOn leaveOut c).resolve .whole).2.result = .ok () ∧
    ((o.sessionOn leaveOut c).resolve .whole).1.children = c ∧
    ((o.sessionOn leaveOut c).resolve .whole).1.counters.total = 0

theorem addsNothing_iff (hw : o.WellShaped) (h : c.Fits o) :
    o.AddsNothing leaveOut c ↔ o.after leaveOut .whole c = c := by
  refine ⟨fun ha ↦ ha.2.1, fun ha ↦ ⟨?_, ha, ?_⟩⟩
  · rw [Session.result_resolve]
    exact Plan.failure_followedBy.mpr ⟨hw.direct, hw.inheritance⟩
  · have ht := (o.sessionOn leaveOut c).total_resolve .whole h.length
    rw [after] at ha
    rw [ha] at ht
    exact Nat.add_right_cancel ht

theorem saturated_of_after_eq (hw : o.WellShaped) (h : c.Fits o)
    (ha : o.after leaveOut .whole c = c) : o.Saturated leaveOut c := by
  have hmid := fits_after leaveOut .direct h
  rw [after_whole hw] at ha
  constructor
  · intro p id hid
    rw [← ha]
    exact subset_after leaveOut .inheritance hmid p ((mem_after_direct h).mpr (.inr hid))
  · intro p q hpq id hid
    rw [← ha]
    exact inherited_after leaveOut hw hmid hpq ((mem_after_direct h).mpr (.inl hid))

end Ontology

end OntologyStructs
