import OntologyStructs.Proofs.Index
import OntologyStructs.Proofs.Resolution.Steps

namespace OntologyStructs

namespace Plan

variable {p q : Plan} {ps : List Plan} {s : ResolutionStep}

theorem failure_followedBy :
    (p.followedBy q).failure = none ↔ p.failure = none ∧ q.failure = none := by
  rw [followedBy]
  cases h : p.failure <;> simp

theorem steps_followedBy (h : p.failure = none) : (p.followedBy q).steps = p.steps ++ q.steps := by
  rw [followedBy, h]

theorem mem_steps_followedBy (h : s ∈ (p.followedBy q).steps) : s ∈ p.steps ∨ s ∈ q.steps := by
  rw [followedBy] at h
  cases hp : p.failure with
  | some m => exact .inl (by simpa [hp] using h)
  | none => simpa [hp] using h

theorem failure_concat : (concat ps).failure = none ↔ ∀ p ∈ ps, p.failure = none := by
  induction ps with
  | nil => simp [concat, empty]
  | cons p ps ih => rw [concat, failure_followedBy, ih, List.forall_mem_cons]

theorem steps_concat (h : ∀ p ∈ ps, p.failure = none) :
    (concat ps).steps = ps.flatMap Plan.steps := by
  induction ps with
  | nil => rfl
  | cons p ps ih =>
    obtain ⟨hp, hps⟩ := List.forall_mem_cons.mp h
    rw [concat, steps_followedBy hp, ih hps, List.flatMap_cons]

theorem mem_steps_concat (h : s ∈ (concat ps).steps) : ∃ p ∈ ps, s ∈ p.steps := by
  induction ps with
  | nil => cases h
  | cons p ps ih =>
    rcases mem_steps_followedBy h with h | h
    · exact ⟨p, List.mem_cons_self, h⟩
    · obtain ⟨q, hq, hs⟩ := ih h
      exact ⟨q, List.mem_cons_of_mem p hq, hs⟩

theorem followedBy_empty (p : Plan) : p.followedBy empty = p := by
  obtain ⟨steps, failure⟩ := p
  cases failure with
  | some m => rfl
  | none => simp only [followedBy, empty, List.append_nil]

theorem followedBy_assoc (p q r : Plan) :
    (p.followedBy q).followedBy r = p.followedBy (q.followedBy r) := by
  obtain ⟨steps, failure⟩ := p
  cases failure with
  | some m => rfl
  | none =>
    obtain ⟨steps', failure'⟩ := q
    cases failure' with
    | some m => rfl
    | none => simp only [followedBy, List.append_assoc]

theorem concat_append (ps qs : List Plan) : concat (ps ++ qs) = (concat ps).followedBy (concat qs) := by
  induction ps with
  | nil => rfl
  | cons p ps ih => rw [List.cons_append, concat, concat, ih, followedBy_assoc]

theorem concat_flatMap {α : Type} (l : List α) (f : α → List Plan) :
    concat (l.flatMap f) = concat (l.map fun a ↦ concat (f a)) := by
  induction l with
  | nil => rfl
  | cons a l ih => rw [List.flatMap_cons, concat_append, ih, List.map_cons, concat]

end Plan

namespace Node

variable (n : Node) (r : Relation)

/-- The identifiers that a relation of an entry names: none where it cannot be read. -/
def targets : List Text :=
  match n.relation r with
  | none => []
  | some v => match Reference.read v with
    | .error _ => []
    | .ok ref => ref.ids

def misreading? : Option Misshapen :=
  match n.relation r with
  | none => none
  | some v => match Reference.read v with
    | .error m => some m
    | .ok _ => none

def joined (leaveOut : Bool) : List Text :=
  if leaveOut && n.isSuperseded then [] else n.targets .subPropertyOf ++ n.targets .domainIncludes

end Node

namespace Ontology

variable (o : Ontology) (leaveOut : Bool) {n : Node} {r : Relation}

def superclassesAt (p : Nat) : List Nat :=
  match o.nodes[p]? with
  | none => []
  | some n => (n.targets .subClassOf).filterMap o.position?

section follow

variable (attach : Text → Nat → ResolutionStep)

theorem failure_follow : (o.follow n r attach).failure = n.misreading? r := by
  rw [follow, Node.misreading?]
  cases n.relation r with
  | none => rfl
  | some v => cases h : Reference.read v <;> simp [h]

theorem steps_follow : (o.follow n r attach).steps =
    ((n.targets r).filter fun id ↦ !o.knows id).map (.dangling r n.id) ++
      (n.targets r).filterMap fun id ↦ (o.position? id).map (attach id) := by
  rw [follow, Node.targets]
  cases n.relation r with
  | none => rfl
  | some v => cases h : Reference.read v <;> simp [h]

theorem mem_steps_follow {s : ResolutionStep} : s ∈ (o.follow n r attach).steps ↔
    (∃ id ∈ n.targets r, o.knows id = false ∧ s = .dangling r n.id id) ∨
      ∃ id ∈ n.targets r, ∃ p, o.position? id = some p ∧ s = attach id p := by
  simp only [steps_follow, List.mem_append, List.mem_map, List.mem_filter, List.mem_filterMap,
    Option.map_eq_some_iff, Bool.not_eq_true', and_assoc, @eq_comm _ _ s]

end follow

theorem failure_joinTargets : (o.joinTargets leaveOut n r).failure =
    if leaveOut && n.isSuperseded then none else n.misreading? r := by
  rw [joinTargets]
  cases hr : n.relation r with
  | none => simp [failure_follow, Node.misreading?, hr]
  | some v => cases h : leaveOut && n.isSuperseded <;> simp [failure_follow]

theorem mem_steps_joinTargets {s : ResolutionStep} (h : s ∈ (o.joinTargets leaveOut n r).steps) :
    s = .superseded r n.id ∨ s ∈ (o.follow n r fun _ p ↦ .member p n.id).steps := by
  rw [joinTargets] at h
  split at h
  · exact .inl (List.mem_singleton.mp h)
  · exact .inr h

end Ontology

end OntologyStructs
