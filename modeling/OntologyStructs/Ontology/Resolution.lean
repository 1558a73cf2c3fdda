import OntologyStructs.Ontology
import OntologyStructs.Ontology.Children
import OntologyStructs.Ontology.VisitingOrder
import OntologyStructs.Value.Reference

namespace OntologyStructs

structure Counters where
  members : Nat := 0
  ranges : Nat := 0
  inherited : Nat := 0
  dangling : Nat := 0
  superseded : Nat := 0
  deriving DecidableEq, Repr

def Counters.total (c : Counters) : Nat := c.members + c.ranges + c.inherited

inductive ResolutionStep
  /-- The entry `child` becomes a child of the one at `parent`. -/
  | member (parent : Nat) (child : Text)
  /-- A range of the entry at `parent` becomes its child. -/
  | range (parent : Nat) (child : Text)
  /-- The children of the entry at `ancestor` become children of the one at `heir`. -/
  | inherit (heir ancestor : Nat)
  /-- The target is not in the vocabulary. -/
  | dangling (relation : Relation) (id target : Text)
  /-- A superseded entry is kept out. -/
  | superseded (relation : Relation) (id : Text)
  deriving DecidableEq, Repr

structure Progress where
  children : Children
  counters : Counters
  deriving DecidableEq, Repr

namespace ResolutionStep

def record? : ResolutionStep → Option Record
  | dangling r id target => some ⟨.debug, .resolution,
      "Skipping dangling " ++ r.key ++ " " ++ id ++ " -> " ++ target⟩
  | superseded r id => some ⟨.debug, .resolution,
      "Not attaching superseded " ++ id ++ " via " ++ r.key⟩
  | _ => none

def apply (p : Progress) : ResolutionStep → Progress
  | member parent child =>
    let (children, count) := p.children.addAll parent [child]
    ⟨children, { p.counters with members := p.counters.members + count }⟩
  | range parent child =>
    let (children, count) := p.children.addAll parent [child]
    ⟨children, { p.counters with ranges := p.counters.ranges + count }⟩
  | inherit heir ancestor =>
    let (children, count) := p.children.addAll heir (p.children.listAt ancestor)
    ⟨children, { p.counters with inherited := p.counters.inherited + count }⟩
  | dangling _ _ _ =>
    { p with counters := { p.counters with dangling := p.counters.dangling + 1 } }
  | superseded _ _ =>
    { p with counters := { p.counters with superseded := p.counters.superseded + 1 } }

end ResolutionStep

def Progress.run (p : Progress) (steps : List ResolutionStep) : Progress :=
  steps.foldl ResolutionStep.apply p

/-- A way through steps, which a misshapen reference may cut short. -/
structure Plan where
  steps : List ResolutionStep
  failure : Option Misshapen

namespace Plan

def empty : Plan := ⟨[], none⟩

/-- The first plan, and then the second unless the first is cut short. -/
def followedBy (p q : Plan) : Plan :=
  match p.failure with
  | some m => ⟨p.steps, some m⟩
  | none => ⟨p.steps ++ q.steps, q.failure⟩

def concat : List Plan → Plan
  | [] => empty
  | p :: ps => p.followedBy (concat ps)

def log (p : Plan) : Log := p.steps.filterMap ResolutionStep.record?

end Plan

namespace Ontology

variable (o : Ontology)

/-- What a relation of an entry leads to: first all targets that are not there, then an attachment
for each that is. -/
def follow (n : Node) (r : Relation) (attach : Text → Nat → ResolutionStep) : Plan :=
  match n.relation r with
  | none => .empty
  | some v => match Reference.read v with
    | .error m => ⟨[], some m⟩
    | .ok ref =>
      let dangling := (ref.ids.filter fun id ↦ !o.knows id).map fun id ↦
        ResolutionStep.dangling r n.id id
      let attached := ref.ids.filterMap fun id ↦ (o.position? id).map fun p ↦ attach id p
      ⟨dangling ++ attached, none⟩

/-- The entry becomes a child of its targets. Where superseded entries are left out, the relation of
one is not even looked into. -/
def joinTargets (leaveOut : Bool) (n : Node) (r : Relation) : Plan :=
  if leaveOut && n.isSuperseded && (n.relation r).isSome then ⟨[.superseded r n.id], none⟩
  else o.follow n r fun _ p ↦ .member p n.id

def directPlanOf (leaveOut : Bool) (n : Node) (position : Nat) : Plan :=
  (o.joinTargets leaveOut n .subPropertyOf).followedBy <|
  (o.joinTargets leaveOut n .domainIncludes).followedBy <|
  o.follow n .rangeIncludes fun id _ ↦ .range position id

def directPlan (leaveOut : Bool) : Plan :=
  .concat (o.nodes.zipIdx.map fun (n, position) ↦ o.directPlanOf leaveOut n position)

def superclasses (n : Node) : Except Misshapen (List Nat) :=
  match n.relation .subClassOf with
  | none => .ok []
  | some v => (Reference.read v).map fun ref ↦ ref.ids.filterMap o.position?

def inheritanceOrder : Except Misshapen (List Nat) :=
  (o.nodes.mapM o.superclasses).map visitingOrder

def inheritPlanOf (position : Nat) : Plan :=
  match o.nodes[position]? with
  | none => .empty
  | some n => o.follow n .subClassOf fun _ p ↦ .inherit position p

/-- Nothing is taken over unless all superclasses can be read. -/
def inheritancePlan : Plan :=
  match o.inheritanceOrder with
  | .error m => ⟨[], some m⟩
  | .ok order => .concat (order.map o.inheritPlanOf)

end Ontology

end OntologyStructs
