import Mathlib.Data.List.Perm.Basic
import OntologyStructs.Proofs.Resolution.Phases

namespace OntologyStructs

def ResolutionStep.notes (ss : List ResolutionStep) : List ResolutionStep :=
  ss.filter fun s ↦ s.parent?.isNone

namespace ResolutionStep

variable {ss ts : List ResolutionStep}

theorem notes_append : notes (ss ++ ts) = notes ss ++ notes ts := List.filter_append ..

theorem notes_flatMap {α : Type} (l : List α) (f : α → List ResolutionStep) :
    notes (l.flatMap f) = l.flatMap fun a ↦ notes (f a) := List.filter_flatMap ..

theorem countP_isDangling_notes : (notes ss).countP isDangling = ss.countP isDangling := by
  rw [notes, List.countP_filter]
  congr 1
  funext s
  cases s <;> rfl

theorem countP_isSuperseded_notes : (notes ss).countP isSuperseded = ss.countP isSuperseded := by
  rw [notes, List.countP_filter]
  congr 1
  funext s
  cases s <;> rfl

end ResolutionStep

open ResolutionStep

namespace Ontology

variable (o : Ontology) (leaveOut : Bool) {n : Node} {r : Relation} {p : Nat}

def danglingNotes (n : Node) (r : Relation) : List ResolutionStep :=
  ((n.targets r).filter fun id ↦ !o.knows id).map (.dangling r n.id)

def joinNotes (n : Node) (r : Relation) : List ResolutionStep :=
  if leaveOut && n.isSuperseded && (n.relation r).isSome then [.superseded r n.id]
  else o.danglingNotes n r

def directNotes (n : Node) : List ResolutionStep :=
  o.joinNotes leaveOut n .subPropertyOf ++ o.joinNotes leaveOut n .domainIncludes ++
    o.danglingNotes n .rangeIncludes

def notesOf (n : Node) : List ResolutionStep :=
  o.directNotes leaveOut n ++ o.danglingNotes n .subClassOf

theorem notes_follow {attach : Text → Nat → ResolutionStep}
    (h : ∀ id p, (attach id p).parent?.isNone = false) :
    notes (o.follow n r attach).steps = o.danglingNotes n r := by
  have hattached : notes ((n.targets r).filterMap fun id ↦ (o.position? id).map (attach id)) = [] := by
    rw [notes, List.filter_eq_nil_iff]
    intro s hs
    obtain ⟨id, _, hid⟩ := List.mem_filterMap.mp hs
    obtain ⟨p, _, rfl⟩ := Option.map_eq_some_iff.mp hid
    simp [h id p]
  have hdangling : notes (o.danglingNotes n r) = o.danglingNotes n r := by
    rw [notes, List.filter_eq_self]
    intro s hs
    obtain ⟨id, _, rfl⟩ := List.mem_map.mp hs
    rfl
  rw [steps_follow, notes_append, hattached, List.append_nil]
  exact hdangling

theorem notes_joinTargets : notes (o.joinTargets leaveOut n r).steps = o.joinNotes leaveOut n r := by
  rw [joinTargets, joinNotes]
  split
  · rfl
  · exact o.notes_follow fun _ _ ↦ rfl

theorem notes_directPlanOf (h : (o.directPlanOf leaveOut n p).failure = none) :
    notes (o.directPlanOf leaveOut n p).steps = o.directNotes leaveOut n := by
  rw [directPlanOf] at h ⊢
  obtain ⟨h₁, h₂⟩ := Plan.failure_followedBy.mp h
  obtain ⟨h₂, _⟩ := Plan.failure_followedBy.mp h₂
  rw [Plan.steps_followedBy h₁, Plan.steps_followedBy h₂, notes_append, notes_append,
    notes_joinTargets, notes_joinTargets, o.notes_follow (fun _ _ ↦ rfl), directNotes,
    List.append_assoc]

theorem notes_directPlan (h : (o.directPlan leaveOut).failure = none) :
    notes (o.directPlan leaveOut).steps = o.nodes.flatMap (o.directNotes leaveOut) := by
  have hplans := Plan.failure_concat.mp h
  have hnotes : ∀ e ∈ o.nodes.zipIdx, notes (o.directPlanOf leaveOut e.1 e.2).steps =
      o.directNotes leaveOut e.1 := by
    intro e he
    apply notes_directPlanOf
    exact hplans _ (List.mem_map_of_mem he)
  rw [directPlan, Plan.steps_concat hplans, List.flatMap_map, notes_flatMap,
    List.flatMap_congr hnotes, ← List.flatMap_map, List.zipIdx_map_fst]

theorem notes_inheritPlanOf (p : Nat) : notes (o.inheritPlanOf p).steps =
    (o.nodes[p]?).elim [] fun n ↦ o.danglingNotes n .subClassOf := by
  rw [inheritPlanOf]
  cases o.nodes[p]? with
  | none => rfl
  | some n => exact o.notes_follow fun _ _ ↦ rfl

end Ontology

theorem flatMap_range_getElem? {α β : Type} (l : List α) (f : α → List β) :
    (List.range l.length).flatMap (fun p ↦ (l[p]?).elim [] f) = l.flatMap f := by
  induction l using List.reverseRecOn with
  | nil => rfl
  | append_singleton l a ih =>
    have hl : ∀ p ∈ List.range l.length, ((l ++ [a])[p]?).elim [] f = (l[p]?).elim [] f := by
      intro p hp
      rw [List.getElem?_append_left (List.mem_range.mp hp)]
    rw [List.length_append, List.length_singleton, List.range_succ, List.flatMap_append,
      List.flatMap_congr hl, ih, List.flatMap_append]
    simp

namespace Ontology

variable {o : Ontology} {leaveOut : Bool} {r : Resolved}

/-- Whatever the order of the visits, each entry leaves its notes once. -/
theorem notes_inheritancePlan (h : o.inheritancePlan.failure = none) :
    (notes o.inheritancePlan.steps).Perm (o.nodes.flatMap fun n ↦ o.danglingNotes n .subClassOf) := by
  rw [o.steps_inheritancePlan (o.failure_inheritancePlan.mp h), visits, notes_flatMap]
  simp only [notes_inheritPlanOf]
  rw [← flatMap_range_getElem? o.nodes, ← length_superclassLists]
  exact (visitingOrder_perm _).flatMap_right _

section resolved

variable (h : (o.resolve leaveOut).result = .ok r)

include h

theorem counters_of_resolve : r.counters = (Progress.run ⟨.ofSize o.nodes.length, {}⟩
    ((o.directPlan leaveOut).steps ++ o.inheritancePlan.steps)).counters := by
  obtain ⟨_, _, rfl⟩ := resolve_eq_ok.mp h
  rw [directProgress_eq, Progress.run_append]
  rfl

theorem notes_of_resolve :
    (notes ((o.directPlan leaveOut).steps ++ o.inheritancePlan.steps)).Perm
      (o.nodes.flatMap (o.notesOf leaveOut)) := by
  obtain ⟨hd, hi, _⟩ := resolve_eq_ok.mp h
  rw [notes_append, notes_directPlan o leaveOut hd]
  exact ((notes_inheritancePlan hi).append_left _).trans (List.flatMap_append_perm _ _ _)

theorem dangling_of_resolve :
    r.counters.dangling = (o.nodes.flatMap (o.notesOf leaveOut)).countP isDangling := by
  rw [counters_of_resolve h, Progress.dangling_run, ← countP_isDangling_notes,
    (notes_of_resolve h).countP_eq]
  exact Nat.zero_add _

theorem superseded_of_resolve :
    r.counters.superseded = (o.nodes.flatMap (o.notesOf leaveOut)).countP isSuperseded := by
  rw [counters_of_resolve h, Progress.superseded_run, ← countP_isSuperseded_notes,
    (notes_of_resolve h).countP_eq]
  exact Nat.zero_add _

end resolved

theorem total_directProgress (o : Ontology) (leaveOut : Bool) :
    (o.directProgress leaveOut).counters.total = (o.directChildren leaveOut).total := by
  have htotal := (Session.start o leaveOut).total_resolve .direct (o.fits_start leaveOut).length
  have hstart : (Session.start o leaveOut).children.total = 0 := Children.total_ofSize o.nodes.length
  rw [hstart] at htotal
  exact htotal.trans (Nat.zero_add _)

theorem inherited_directProgress (o : Ontology) (leaveOut : Bool) :
    (o.directProgress leaveOut).counters.inherited = 0 := by
  rw [directProgress_eq, Progress.inherited_run fun s hs ↦
    (o.directStep_directPlan leaveOut hs).not_inherit]
  rfl

section resolved

variable (h : (o.resolve leaveOut).result = .ok r)

include h

/-- Every child is counted once, when it comes. -/
theorem total_of_resolve : r.counters.total = r.children.total := by
  have hw : ∀ s ∈ o.inheritancePlan.steps, s.Within (o.directProgress leaveOut).children.length :=
    within_plan leaveOut .inheritance (o.fits_directChildren leaveOut)
  have hrun := Progress.total_run hw
  have hdirect : (o.directProgress leaveOut).counters.total =
      (o.directProgress leaveOut).children.total := o.total_directProgress leaveOut
  obtain ⟨_, _, rfl⟩ := resolve_eq_ok.mp h
  dsimp only
  omega

theorem attached_of_resolve :
    r.counters.members + r.counters.ranges = (o.directChildren leaveOut).total := by
  obtain ⟨hmembers, hranges⟩ := Progress.attached_run (P := o.directProgress leaveOut)
    fun s hs ↦ (o.inheritStep_inheritancePlan hs).not_attachment
  have hdirect := o.total_directProgress leaveOut
  have hinherited := o.inherited_directProgress leaveOut
  obtain ⟨_, _, rfl⟩ := resolve_eq_ok.mp h
  dsimp only
  rw [hmembers, hranges, ← hdirect, Counters.total, hinherited, Nat.add_zero]

end resolved

end Ontology

end OntologyStructs
