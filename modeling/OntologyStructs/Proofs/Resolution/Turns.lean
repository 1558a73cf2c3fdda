import OntologyStructs.Proofs.Resolution.Closure
import OntologyStructs.Proofs.Value

namespace OntologyStructs

structure Turn where
  node : Node
  position : Nat
  relation : Relation

namespace Turn

variable (leaveOut : Bool) (t : Turn)

/-- What a superseded entry would join does not matter where it is left out. -/
def isConsulted : Bool :=
  !(leaveOut && t.node.isSuperseded &&
    (t.relation == .subPropertyOf || t.relation == .domainIncludes))

def misfit? : Option Json :=
  (t.node.relation t.relation).filter fun v ↦ t.isConsulted leaveOut && !ValueKind.reference.fits v

def attach (target : Text) (place : Nat) : ResolutionStep :=
  if t.relation = .rangeIncludes then .range t.position target else .member place t.node.id

end Turn

namespace Ontology

variable (o : Ontology) (leaveOut : Bool)

def directTurns : List Turn :=
  o.nodes.zipIdx.flatMap fun (n, p) ↦
    [⟨n, p, .subPropertyOf⟩, ⟨n, p, .domainIncludes⟩, ⟨n, p, .rangeIncludes⟩]

def superclassTurns : List Turn := o.nodes.zipIdx.map fun (n, p) ↦ ⟨n, p, .subClassOf⟩

/-- Superclasses have their turn when all else is done. -/
def turns : List Turn := o.directTurns ++ o.superclassTurns

def stepsOf (t : Turn) : List ResolutionStep :=
  if t.relation = .subClassOf then []
  else if t.isConsulted leaveOut then
    ((t.node.targets t.relation).filter fun id ↦ !o.knows id).map (.dangling t.relation t.node.id) ++
      (t.node.targets t.relation).filterMap fun id ↦ (o.position? id).map (t.attach id)
  else if (t.node.relation t.relation).isSome then [.superseded t.relation t.node.id] else []

def planOf (t : Turn) : Plan := ⟨o.stepsOf leaveOut t, (t.misfit? leaveOut).map (.mk .reference)⟩

end Ontology

theorem Node.misreading?_eq (n : Node) (r : Relation) : n.misreading? r =
    ((n.relation r).filter fun v ↦ !ValueKind.reference.fits v).map (.mk .reference) := by
  rw [misreading?]
  cases n.relation r with
  | none => rfl
  | some v =>
    rw [Option.filter_some]
    rcases Reference.readBy v with ⟨hfits, ref, hv⟩ | ⟨hfits, hv⟩
    · simp [hfits, hv]
    · simp [hfits, hv]

def Node.withRelation (n : Node) (r : Relation) (v : Json) : Node :=
  { n with relation := fun r' ↦ if r' = r then some v else n.relation r' }

namespace Ontology

variable {o : Ontology} {leaveOut : Bool} {n : Node} {p : Nat} {r : Relation} {t : Turn} {v : Json}

/-- A relation that is consulted and cannot be read leads to nothing. -/
theorem stepsOf_of_misfit (h : t.misfit? leaveOut = some v) : o.stepsOf leaveOut t = [] := by
  rw [Turn.misfit?, Option.filter_eq_some_iff, Bool.and_eq_true, Bool.not_eq_true'] at h
  obtain ⟨hv, hconsulted, hfits⟩ := h
  have hnone : t.node.targets t.relation = [] := by
    rcases Reference.readBy v with ⟨hfits', -⟩ | ⟨-, hread⟩
    · rw [hfits] at hfits'
      cases hfits'
    · simp only [Node.targets, hv, hread]
  rw [stepsOf, if_pos hconsulted, hnone]
  exact ite_self _

theorem planOf_eq_follow {attach : Text → Nat → ResolutionStep} (hr : r ≠ .subClassOf)
    (hc : Turn.isConsulted leaveOut ⟨n, p, r⟩) (ha : Turn.attach ⟨n, p, r⟩ = attach) :
    o.planOf leaveOut ⟨n, p, r⟩ = o.follow n r attach := by
  have hsteps := o.steps_follow (n := n) (r := r) attach
  have hfailure := o.failure_follow (n := n) (r := r) attach
  rw [Node.misreading?_eq] at hfailure
  rw [planOf, stepsOf, if_neg hr, if_pos hc, ha, Turn.misfit?, hc, ← hsteps]
  simp only [Bool.true_and, ← hfailure]

theorem planOf_eq_joinTargets (hr : r = .subPropertyOf ∨ r = .domainIncludes) :
    o.planOf leaveOut ⟨n, p, r⟩ = o.joinTargets leaveOut n r := by
  have hsub : r ≠ .subClassOf := by rcases hr with rfl | rfl <;> decide
  have hrange : r ≠ .rangeIncludes := by rcases hr with rfl | rfl <;> decide
  have hjoin : (r == .subPropertyOf || r == .domainIncludes) = true := by simpa using hr
  have hconsulted : Turn.isConsulted leaveOut ⟨n, p, r⟩ = !(leaveOut && n.isSuperseded) := by
    rw [Turn.isConsulted, hjoin, Bool.and_true]
  rw [joinTargets]
  cases hs : leaveOut && n.isSuperseded with
  | false =>
    rw [hs] at hconsulted
    refine planOf_eq_follow hsub hconsulted ?_
    funext id a
    exact if_neg hrange
  | true =>
    rw [hs] at hconsulted
    rw [planOf, stepsOf, if_neg hsub, Turn.misfit?, hconsulted]
    -- a relation that is not there leads to nothing, whether or not it is looked into
    cases hv : n.relation r with
    | none => simp [follow, hv, Plan.empty]
    | some v => simp

theorem directPlanOf_eq_concat (n : Node) (p : Nat) : o.directPlanOf leaveOut n p =
    .concat ([⟨n, p, .subPropertyOf⟩, ⟨n, p, .domainIncludes⟩, ⟨n, p, .rangeIncludes⟩].map
      (o.planOf leaveOut)) := by
  have hrange : o.planOf leaveOut ⟨n, p, .rangeIncludes⟩ =
      o.follow n .rangeIncludes fun id _ ↦ .range p id :=
    planOf_eq_follow (by decide) (by simp [Turn.isConsulted]) rfl
  simp only [List.map_cons, List.map_nil, Plan.concat]
  rw [planOf_eq_joinTargets (.inl rfl), planOf_eq_joinTargets (.inr rfl), hrange,
    Plan.followedBy_empty, directPlanOf]

theorem directPlan_eq_concat : o.directPlan leaveOut = .concat (o.directTurns.map (o.planOf leaveOut)) := by
  rw [directTurns, List.map_flatMap, Plan.concat_flatMap, directPlan]
  congr 1
  apply List.map_congr_left
  intro e _
  exact directPlanOf_eq_concat e.1 e.2

theorem relation_of_mem_directTurns (h : t ∈ o.directTurns) : t.relation ≠ .subClassOf := by
  obtain ⟨e, -, ht⟩ := List.mem_flatMap.mp h
  simp only [List.mem_cons, List.not_mem_nil, or_false] at ht
  rcases ht with rfl | rfl | rfl <;> simp

theorem relation_of_mem_superclassTurns (h : t ∈ o.superclassTurns) : t.relation = .subClassOf := by
  obtain ⟨e, -, rfl⟩ := List.mem_map.mp h
  rfl

theorem stepsOf_superclassTurns {ts : List Turn} (h : ts ⊆ o.superclassTurns) :
    ts.flatMap (o.stepsOf leaveOut) = [] := by
  rw [List.flatMap_eq_nil_iff]
  intro t ht
  rw [stepsOf, if_pos (relation_of_mem_superclassTurns (h ht))]

theorem map_planOf_superclassTurns : o.superclassTurns.map (o.planOf leaveOut) =
    o.nodes.map fun n ↦ ⟨[], n.misreading? .subClassOf⟩ := by
  have hplan (n : Node) (p : Nat) :
      o.planOf leaveOut ⟨n, p, .subClassOf⟩ = ⟨[], n.misreading? .subClassOf⟩ := by
    have hconsulted : Turn.isConsulted leaveOut ⟨n, p, .subClassOf⟩ = true := by
      simp [Turn.isConsulted]
    rw [planOf, stepsOf, if_pos rfl, Turn.misfit?, hconsulted, Node.misreading?_eq]
    simp only [Bool.true_and]
  rw [superclassTurns, List.map_map]
  simp only [Function.comp_def, hplan]
  rw [← List.zipIdx_map_fst 0 o.nodes, List.map_map, List.zipIdx_map_fst]
  rfl

theorem concat_misreadings (ns : List Node) :
    Plan.concat (ns.map fun n ↦ ⟨[], n.misreading? .subClassOf⟩) =
      match ns.mapM o.superclasses with
      | .error m => ⟨[], some m⟩
      | .ok _ => .empty := by
  induction ns with
  | nil => rfl
  | cons n ns ih =>
    rw [List.map_cons, Plan.concat, ih, List.mapM_cons]
    cases hn : n.misreading? .subClassOf with
    | some m =>
      rw [o.superclasses_eq_error hn]
      rfl
    | none =>
      rw [o.superclasses_eq_ok hn]
      cases ns.mapM o.superclasses <;> rfl

/-- All superclasses have had their turn before the first is visited. -/
theorem inheritancePlan_eq : o.inheritancePlan =
    (Plan.concat (o.superclassTurns.map (o.planOf leaveOut))).followedBy o.inheritancePlan := by
  rw [map_planOf_superclassTurns, concat_misreadings (o := o), inheritancePlan, inheritanceOrder]
  cases o.nodes.mapM o.superclasses <;> rfl

theorem failure_superclassTurns :
    (Plan.concat (o.superclassTurns.map (o.planOf leaveOut))).failure = none ↔
      o.inheritancePlan.failure = none := by
  rw [map_planOf_superclassTurns, Plan.failure_concat, List.forall_mem_map, failure_inheritancePlan]

theorem plan_whole (s : Session) : s.plan .whole =
    (Plan.concat (s.ontology.turns.map (s.ontology.planOf s.leaveOut))).followedBy
      s.ontology.inheritancePlan := by
  rw [turns, List.map_append, Plan.concat_append, ← directPlan_eq_concat, Plan.followedBy_assoc,
    ← inheritancePlan_eq]
  rfl

theorem failure_concat_planOf {ts : List Turn} :
    (Plan.concat (ts.map (o.planOf leaveOut))).failure = none ↔ ∀ t ∈ ts, t.misfit? leaveOut = none := by
  rw [Plan.failure_concat, List.forall_mem_map]
  simp only [planOf, Option.map_eq_none_iff]

theorem steps_concat_planOf {ts : List Turn} (h : ∀ t ∈ ts, t.misfit? leaveOut = none) :
    (Plan.concat (ts.map (o.planOf leaveOut))).steps = ts.flatMap (o.stepsOf leaveOut) := by
  rw [Plan.steps_concat (Plan.failure_concat.mp (failure_concat_planOf.mpr h)), List.flatMap_map]
  rfl

theorem failure_plan_whole (s : Session) : (s.plan .whole).failure = none ↔
    ∀ t ∈ s.ontology.turns, t.misfit? s.leaveOut = none := by
  rw [← failure_concat_planOf, plan_whole, Plan.failure_followedBy, and_iff_left_iff_imp, turns,
    List.map_append, Plan.concat_append, Plan.failure_followedBy, failure_superclassTurns]
  exact And.right

theorem plan_of_misfit (s : Session) {before after : List Turn}
    (hturns : s.ontology.turns = before ++ t :: after)
    (hbefore : ∀ u ∈ before, u.misfit? s.leaveOut = none) (ht : t.misfit? s.leaveOut = some v) :
    s.plan .whole = ⟨before.flatMap (s.ontology.stepsOf s.leaveOut), some ⟨.reference, v⟩⟩ := by
  -- the plan of this turn cuts short all that follows
  have hcut (p : Plan) : (s.ontology.planOf s.leaveOut t).followedBy p = ⟨[], some ⟨.reference, v⟩⟩ := by
    rw [planOf, stepsOf_of_misfit ht, ht]
    rfl
  rw [plan_whole, hturns, List.map_append, List.map_cons, Plan.concat_append, Plan.concat,
    Plan.followedBy_assoc, Plan.followedBy_assoc, hcut, Plan.followedBy,
    failure_concat_planOf.mpr hbefore, steps_concat_planOf hbefore]
  simp only [List.append_nil]

theorem directTurns_before {before after : List Turn} (hturns : o.turns = before ++ t :: after)
    (h : t.relation = .subClassOf) : ∃ read, before = o.directTurns ++ read ∧ read ⊆ o.superclassTurns := by
  rcases List.append_eq_append_iff.mp hturns with ⟨read, hbefore, hsuper⟩ | ⟨rest, hdirect, hsuper⟩
  · refine ⟨read, hbefore, ?_⟩
    rw [hsuper]
    exact List.subset_append_left _ _
  · -- if the cut falls among the direct turns, it falls at their end
    cases rest with
    | nil => exact ⟨[], by rw [hdirect, List.append_nil, List.append_nil], List.nil_subset _⟩
    | cons u rest =>
      obtain ⟨rfl, -⟩ := List.cons.inj hsuper
      have ht : t ∈ o.directTurns := by simp [hdirect]
      exact absurd h (relation_of_mem_directTurns ht)

theorem mem_turns (h : t ∈ o.turns) :
    t.node ∈ o.nodes ∧ t.relation ≠ .inverseOf ∧ t.relation ≠ .supersededBy := by
  have hmem {n : Node} {p : Nat} (he : (n, p) ∈ o.nodes.zipIdx) : n ∈ o.nodes :=
    List.mem_of_getElem? (List.mem_zipIdx_iff_getElem?.mp he)
  rcases List.mem_append.mp h with h | h
  · obtain ⟨e, he, ht⟩ := List.mem_flatMap.mp h
    simp only [List.mem_cons, List.not_mem_nil, or_false] at ht
    rcases ht with rfl | rfl | rfl <;> exact ⟨hmem he, by simp, by simp⟩
  · obtain ⟨e, he, rfl⟩ := List.mem_map.mp h
    exact ⟨hmem he, by simp, by simp⟩

/-- A resolution fails at the first relation whose value is consulted and is no reference. All that the
relations before it lead to has been done by then, and nothing else: where it is about superclasses, just
the direct phase. A target that is not there is no reason to fail, nor is any value of `inverseOf` or
`supersededBy`. -/
theorem resolve_up_to_misfit (s : Session) :
    ((s.resolve .whole).2.result = .ok () ↔
      ∀ t ∈ s.ontology.turns, t.misfit? s.leaveOut = none) ∧
    (∀ before t after v, s.ontology.turns = before ++ t :: after →
      (∀ u ∈ before, u.misfit? s.leaveOut = none) → t.misfit? s.leaveOut = some v →
      (s.resolve .whole).2.result = .error ⟨.reference, v⟩ ∧
      (s.resolve .whole).1.progress =
        s.progress.run (before.flatMap (s.ontology.stepsOf s.leaveOut)) ∧
      (t.relation = .subClassOf → (s.resolve .direct).2.result = .ok () ∧
        (s.resolve .whole).1.progress = (s.resolve .direct).1.progress)) ∧
    ((∀ n ∈ s.ontology.nodes, ∀ r, r ≠ .inverseOf → r ≠ .supersededBy →
        ∀ v, n.relation r = some v → ValueKind.reference.fits v) →
      (s.resolve .whole).2.result = .ok ()) := by
  have hok := (s.result_resolve .whole).trans (failure_plan_whole s)
  refine ⟨hok, fun before t after v hturns hbefore ht ↦ ⟨?_, ?_, fun hsuper ↦ ?_⟩, fun hfits ↦ ?_⟩
  · apply s.result_resolve_of_failure
    rw [plan_of_misfit s hturns hbefore ht]
  · rw [s.progress_resolve, plan_of_misfit s hturns hbefore ht]
  · obtain ⟨read, rfl, hread⟩ := directTurns_before hturns hsuper
    have hdirect : ∀ u ∈ s.ontology.directTurns, u.misfit? s.leaveOut = none :=
      fun u hu ↦ hbefore u (List.mem_append_left _ hu)
    have hplan : s.plan .direct =
        .concat (s.ontology.directTurns.map (s.ontology.planOf s.leaveOut)) := directPlan_eq_concat
    refine ⟨(s.result_resolve .direct).mpr ?_, ?_⟩
    · rw [hplan, failure_concat_planOf]
      exact hdirect
    · rw [s.progress_resolve, s.progress_resolve, plan_of_misfit s hturns hbefore ht, hplan,
        steps_concat_planOf hdirect, List.flatMap_append, stepsOf_superclassTurns hread, List.append_nil]
  · rw [hok]
    intro t ht
    obtain ⟨hn, hinverse, hsuperseded⟩ := mem_turns ht
    rw [Turn.misfit?, Option.filter_eq_none_iff]
    intro v hv
    simp [hfits t.node hn t.relation hinverse hsuperseded v hv]

/-- A library whose `isbn` is superseded by a number and is a subproperty of another. What its books
range over is left open, and what they are is no reference. -/
def library (ranges : Json) : Ontology := .ofDocument ⟨[], [
  ((Node.bare "isbn" []).withRelation .supersededBy (.int 10)).withRelation .subPropertyOf (.int 13),
  .bare "author" [(.domainIncludes, ["Book", "Shelf"])],
  ((Node.bare "Book" []).withRelation .rangeIncludes ranges).withRelation .subClassOf (.text "Work"),
  .bare "title" [(.domainIncludes, ["Book"])]]⟩

def librarySession (ranges : Json) : Session := .start (library ranges) true

theorem library_fails :
    ((librarySession (.text "title")).resolve .whole).2.result = .error ⟨.reference, .text "title"⟩ ∧
    ((librarySession (.text "title")).resolve .whole).1.progress =
      ⟨[[], [], ["author"], []], ⟨1, 0, 0, 1, 1⟩⟩ ∧
    ((librarySession (.list [.text "title"])).resolve .whole).2.result =
      .error ⟨.reference, .text "Work"⟩ ∧
    ((librarySession (.list [.text "title"])).resolve .direct).2.result = .ok () ∧
    ((librarySession (.list [.text "title"])).resolve .whole).1.progress =
      ((librarySession (.list [.text "title"])).resolve .direct).1.progress := by
  obtain ⟨-, hfirst, -⟩ := resolve_up_to_misfit (librarySession (.text "title"))
  obtain ⟨-, hlast, -⟩ := resolve_up_to_misfit (librarySession (.list [.text "title"]))
  have hbefore : ∀ u ∈ (library (.text "title")).turns.take 8, u.misfit? true = none := by
    simp only [← Option.isNone_iff_eq_none]
    decide +kernel
  have hbefore' : ∀ u ∈ (library (.list [.text "title"])).turns.take 14, u.misfit? true = none := by
    simp only [← Option.isNone_iff_eq_none]
    decide +kernel
  obtain ⟨herror, hprogress, -⟩ := hfirst _ _ ((library (.text "title")).turns.drop 9) _ rfl hbefore rfl
  obtain ⟨herror', -, hsuper⟩ :=
    hlast _ _ ((library (.list [.text "title"])).turns.drop 15) _ rfl hbefore' rfl
  obtain ⟨hdirect, hdirectly⟩ := hsuper rfl
  exact ⟨herror, hprogress.trans (by decide +kernel), herror', hdirect, hdirectly⟩

end Ontology

end OntologyStructs
