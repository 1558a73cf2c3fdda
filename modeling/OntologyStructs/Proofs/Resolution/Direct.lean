import OntologyStructs.Ontology.Session
import OntologyStructs.Proofs.Resolution.Plans

namespace OntologyStructs

/-- The plan makes `id` a child of the entry at `q`, whatever the children are before it. -/
def Plan.Gives (p : Plan) (q : Nat) (id : Text) : Prop :=
  ∃ s ∈ p.steps, s.parent? = some q ∧ id ∈ s.brings []

namespace ResolutionStep

variable {s : ResolutionStep}

theorem brings_eq (h : s.isInherit = false) (c d : Children) : s.brings c = s.brings d := by
  cases s with
  | inherit p a => cases h
  | member p id => rfl
  | range p id => rfl
  | dangling r id target => rfl
  | superseded r id => rfl

def bringsTo (q : Nat) (s : ResolutionStep) : List Text :=
  if s.parent? = some q then s.brings [] else []

end ResolutionStep

theorem Plan.gives_iff {p : Plan} {q : Nat} {id : Text} :
    p.Gives q id ↔ id ∈ p.steps.flatMap (ResolutionStep.bringsTo q) := by
  simp only [Gives, List.mem_flatMap, ResolutionStep.bringsTo, List.mem_ite_nil_right]

/-- Of what direct steps bring to an entry it keeps what is new, in the order in which it comes. -/
theorem Progress.listAt_run_direct {P : Progress} {ss : List ResolutionStep} {q : Nat}
    (hs : ∀ s ∈ ss, s.isInherit = false) (hw : ∀ s ∈ ss, s.Within P.children.length)
    (hd : P.children.Distinct) :
    (P.run ss).children.listAt q = (P.children.listAt q ++ ss.flatMap (ResolutionStep.bringsTo q)).eraseDups := by
  induction ss generalizing P with
  | nil => rw [run_nil, List.flatMap_nil, List.append_nil, (hd q).eraseDups_eq]
  | cons s ss ih =>
    have hsw := hw s List.mem_cons_self
    have hstep : (ResolutionStep.apply P s).children.listAt q =
        (P.children.listAt q ++ s.bringsTo q).eraseDups := by
      rw [ResolutionStep.bringsTo]
      split
      next hp =>
        rw [ResolutionStep.listAt_apply_of_parent hsw hd hp,
          ResolutionStep.brings_eq (hs s List.mem_cons_self) P.children []]
      next hp => rw [ResolutionStep.listAt_apply_of_ne s hp, List.append_nil, (hd q).eraseDups_eq]
    rw [run_cons, ih (fun t ht ↦ hs t (List.mem_cons_of_mem s ht)) (within_apply hw)
      (ResolutionStep.distinct_apply hsw hd), hstep, List.eraseDups_eraseDups_append,
      List.flatMap_cons, List.append_assoc]

theorem Progress.mem_run_direct {P : Progress} {p : Plan} {q : Nat} {id : Text}
    (hs : ∀ s ∈ p.steps, s.isInherit = false)
    (hw : ∀ s ∈ p.steps, s.Within P.children.length) (hd : P.children.Distinct) :
    id ∈ (P.run p.steps).children.listAt q ↔ id ∈ P.children.listAt q ∨ p.Gives q id := by
  rw [listAt_run_direct hs hw hd, List.mem_eraseDups, List.mem_append, Plan.gives_iff]

namespace Ontology

variable (o : Ontology) (leaveOut : Bool) {n : Node} {r : Relation} {p q : Nat} {id : Text}

structure DirectStep (s : ResolutionStep) : Prop where
  within : s.Within o.nodes.length
  not_inherit : s.isInherit = false
  knows : ∀ q, s.parent? = some q → ∀ id ∈ s.brings [], o.knows id

theorem directStep_follow {attach : Text → Nat → ResolutionStep}
    (h : ∀ id ∈ n.targets r, ∀ q, o.position? id = some q → o.DirectStep (attach id q))
    {s : ResolutionStep} (hs : s ∈ (o.follow n r attach).steps) : o.DirectStep s := by
  rcases (o.mem_steps_follow attach).mp hs with ⟨id, _, _, rfl⟩ | ⟨id, hid, q, hq, rfl⟩
  · exact ⟨fun _ h ↦ (nomatch h), rfl, fun _ h ↦ (nomatch h)⟩
  · exact h id hid q hq

theorem directStep_joinTargets (hn : n ∈ o.nodes) {s : ResolutionStep}
    (hs : s ∈ (o.joinTargets leaveOut n r).steps) : o.DirectStep s := by
  rcases o.mem_steps_joinTargets leaveOut hs with rfl | hs
  · exact ⟨fun _ h ↦ (nomatch h), rfl, fun _ h ↦ (nomatch h)⟩
  · refine o.directStep_follow (fun id _ q hq ↦ ⟨?_, rfl, ?_⟩) hs
    · intro q hq
      cases hq
      exact position?_lt hq
    · intro _ _ id hid
      rw [List.mem_singleton.mp hid]
      exact o.knows_of_mem hn

theorem directStep_directPlanOf (hn : o.nodes[p]? = some n) {s : ResolutionStep}
    (hs : s ∈ (o.directPlanOf leaveOut n p).steps) : o.DirectStep s := by
  obtain ⟨hp, rfl⟩ := List.getElem?_eq_some_iff.mp hn
  rw [directPlanOf] at hs
  rcases Plan.mem_steps_followedBy hs with hs | hs
  · exact o.directStep_joinTargets leaveOut (List.getElem_mem hp) hs
  · rcases Plan.mem_steps_followedBy hs with hs | hs
    · exact o.directStep_joinTargets leaveOut (List.getElem_mem hp) hs
    · refine o.directStep_follow (fun id _ q hq ↦ ⟨?_, rfl, ?_⟩) hs
      · intro q hq
        cases hq
        exact hp
      · intro _ _ id' hid
        rw [List.mem_singleton.mp hid]
        exact position?_knows hq

theorem mem_directPlans {P : Plan} :
    P ∈ o.nodes.zipIdx.map (fun (n, p) ↦ o.directPlanOf leaveOut n p) ↔
      ∃ n p, o.nodes[p]? = some n ∧ P = o.directPlanOf leaveOut n p := by
  simp only [List.mem_map, Prod.exists, List.mem_zipIdx_iff_getElem?, @eq_comm _ _ P]

theorem directStep_directPlan {s : ResolutionStep} (hs : s ∈ (o.directPlan leaveOut).steps) :
    o.DirectStep s := by
  obtain ⟨P, hP, hs⟩ := Plan.mem_steps_concat hs
  obtain ⟨n, p, hn, rfl⟩ := (o.mem_directPlans leaveOut).mp hP
  exact o.directStep_directPlanOf leaveOut hn hs

theorem failure_directPlanOf : (o.directPlanOf leaveOut n p).failure = none ↔
    (leaveOut && n.isSuperseded ∨
      n.misreading? .subPropertyOf = none ∧ n.misreading? .domainIncludes = none) ∧
    n.misreading? .rangeIncludes = none := by
  rw [directPlanOf, Plan.failure_followedBy, Plan.failure_followedBy, failure_joinTargets,
    failure_joinTargets, failure_follow]
  cases leaveOut && n.isSuperseded <;> simp [and_assoc]

theorem failure_directPlan : (o.directPlan leaveOut).failure = none ↔
    ∀ n ∈ o.nodes, (leaveOut && n.isSuperseded ∨
      n.misreading? .subPropertyOf = none ∧ n.misreading? .domainIncludes = none) ∧
      n.misreading? .rangeIncludes = none := by
  rw [directPlan, Plan.failure_concat]
  constructor
  · intro h n hn
    obtain ⟨p, hp⟩ := List.mem_iff_getElem?.mp hn
    exact (o.failure_directPlanOf leaveOut).mp
      (h _ ((o.mem_directPlans leaveOut).mpr ⟨n, p, hp, rfl⟩))
  · intro h P hP
    obtain ⟨n, p, hn, rfl⟩ := (o.mem_directPlans leaveOut).mp hP
    exact (o.failure_directPlanOf leaveOut).mpr (h n (List.mem_of_getElem? hn))

/-- What the entry at position `i` brings to the one at `q`: itself, once for each way in which it joins
that entry, and its known ranges where it is that entry. -/
def arrivalsFrom (q : Nat) (n : Node) (i : Nat) : List Text :=
  ((n.joined leaveOut).filter fun t ↦ o.position? t = some q).map (fun _ ↦ n.id) ++
    if i = q then (n.targets .rangeIncludes).filter o.knows else []

def arrivals (q : Nat) : List Text :=
  o.nodes.zipIdx.flatMap fun (n, i) ↦ o.arrivalsFrom leaveOut q n i

theorem bringsTo_follow (attach : Text → Nat → ResolutionStep) :
    (o.follow n r attach).steps.flatMap (ResolutionStep.bringsTo q) =
      (n.targets r).flatMap fun t ↦ (o.position? t).elim [] fun a ↦ (attach t a).bringsTo q := by
  have hnone : ((n.targets r).filter fun t ↦ !o.knows t).flatMap
      (fun t ↦ (ResolutionStep.dangling r n.id t).bringsTo q) = [] :=
    List.flatMap_eq_nil_iff.mpr fun _ _ ↦ rfl
  rw [steps_follow, List.flatMap_append, List.flatMap_map, hnone, List.nil_append,
    List.filterMap_eq_flatMap_toList, List.flatMap_assoc]
  apply List.flatMap_congr
  intro t _
  cases o.position? t with
  | none => rfl
  | some a => exact List.flatMap_singleton _ _

theorem bringsTo_joinTargets : (o.joinTargets leaveOut n r).steps.flatMap (ResolutionStep.bringsTo q) =
    if leaveOut && n.isSuperseded then []
    else ((n.targets r).filter fun t ↦ o.position? t = some q).map fun _ ↦ n.id := by
  have hmembers : (o.follow n r fun _ a ↦ .member a n.id).steps.flatMap (ResolutionStep.bringsTo q) =
      ((n.targets r).filter fun t ↦ o.position? t = some q).map fun _ ↦ n.id := by
    rw [bringsTo_follow]
    generalize n.targets r = ts
    induction ts with
    | nil => rfl
    | cons t ts ih =>
      rw [List.flatMap_cons, ih, List.filter_cons]
      cases o.position? t with
      | none => rfl
      | some a => by_cases ha : a = q <;> simp [ResolutionStep.bringsTo, ResolutionStep.parent?,
          ResolutionStep.brings, ha]
  rw [joinTargets]
  cases h : leaveOut && n.isSuperseded with
  | false => simpa using hmembers
  | true =>
    cases hr : n.relation r with
    | none => simp [hmembers, Node.targets, hr]
    | some v => rfl

theorem bringsTo_ranges : (o.follow n .rangeIncludes fun id _ ↦ .range p id).steps.flatMap (ResolutionStep.bringsTo q) =
    if p = q then (n.targets .rangeIncludes).filter o.knows else [] := by
  rw [bringsTo_follow]
  generalize n.targets .rangeIncludes = ts
  induction ts with
  | nil => simp
  | cons t ts ih =>
    rw [List.flatMap_cons, ih, List.filter_cons, knows]
    cases o.position? t with
    | none => rfl
    | some a => by_cases hp : p = q <;> simp [ResolutionStep.bringsTo, ResolutionStep.parent?,
        ResolutionStep.brings, hp]

theorem bringsTo_directPlanOf (h : (o.directPlanOf leaveOut n p).failure = none) :
    (o.directPlanOf leaveOut n p).steps.flatMap (ResolutionStep.bringsTo q) = o.arrivalsFrom leaveOut q n p := by
  rw [directPlanOf] at h ⊢
  obtain ⟨h₁, h₂⟩ := Plan.failure_followedBy.mp h
  obtain ⟨h₂, -⟩ := Plan.failure_followedBy.mp h₂
  rw [Plan.steps_followedBy h₁, Plan.steps_followedBy h₂, List.flatMap_append, List.flatMap_append,
    bringsTo_joinTargets, bringsTo_joinTargets, bringsTo_ranges, ← List.append_assoc, arrivalsFrom,
    Node.joined]
  cases leaveOut && n.isSuperseded with
  | true => rfl
  | false => simp

theorem bringsTo_directPlan (h : (o.directPlan leaveOut).failure = none) :
    (o.directPlan leaveOut).steps.flatMap (ResolutionStep.bringsTo q) = o.arrivals leaveOut q := by
  have hplans := Plan.failure_concat.mp h
  rw [directPlan, Plan.steps_concat hplans, List.flatMap_assoc, List.flatMap_map]
  apply List.flatMap_congr
  intro e he
  exact o.bringsTo_directPlanOf leaveOut (hplans _ (List.mem_map_of_mem he))

theorem mem_arrivals : id ∈ o.arrivals leaveOut q ↔
    (∃ n ∈ o.nodes, n.id = id ∧ ∃ t ∈ n.joined leaveOut, o.position? t = some q) ∨
      ∃ n, o.nodes[q]? = some n ∧ id ∈ n.targets .rangeIncludes ∧ o.knows id := by
  have hfrom (n : Node) (i : Nat) : id ∈ o.arrivalsFrom leaveOut q n i ↔
      (n.id = id ∧ ∃ t ∈ n.joined leaveOut, o.position? t = some q) ∨
        i = q ∧ id ∈ n.targets .rangeIncludes ∧ o.knows id := by
    by_cases hi : i = q <;> simp [arrivalsFrom, hi, and_comm, @eq_comm _ id]
  simp only [arrivals, List.mem_flatMap, Prod.exists, List.mem_zipIdx_iff_getElem?, hfrom]
  constructor
  · intro hx
    obtain ⟨n, i, hn, hjoin | ⟨rfl, hrange⟩⟩ := hx
    · exact .inl ⟨n, List.mem_of_getElem? hn, hjoin⟩
    · exact .inr ⟨n, hn, hrange⟩
  · intro hx
    rcases hx with ⟨n, hn, hjoin⟩ | ⟨n, hn, hrange⟩
    · obtain ⟨i, hi⟩ := List.mem_iff_getElem?.mp hn
      exact ⟨n, i, hi, .inl hjoin⟩
    · exact ⟨n, q, hn, .inr ⟨rfl, hrange⟩⟩

theorem gives_directPlan (h : (o.directPlan leaveOut).failure = none) :
    (o.directPlan leaveOut).Gives q id ↔
      (∃ n ∈ o.nodes, n.id = id ∧ ∃ t ∈ n.joined leaveOut, o.position? t = some q) ∨
        ∃ n, o.nodes[q]? = some n ∧ id ∈ n.targets .rangeIncludes ∧ o.knows id := by
  rw [Plan.gives_iff, bringsTo_directPlan o leaveOut h, mem_arrivals]

end Ontology

end OntologyStructs
