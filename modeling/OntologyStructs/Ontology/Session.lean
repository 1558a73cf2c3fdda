import OntologyStructs.Ontology.Resolution

namespace OntologyStructs

inductive Phase
  | direct
  | inheritance
  | whole
  deriving DecidableEq, Repr

structure Session where
  ontology : Ontology
  progress : Progress
  leaveOut : Bool

namespace Session

def start (o : Ontology) (leaveOut : Bool) : Session :=
  ⟨o, ⟨.ofSize o.nodes.length, {}⟩, leaveOut⟩

def plan (s : Session) : Phase → Plan
  | .direct => s.ontology.directPlan s.leaveOut
  | .inheritance => s.ontology.inheritancePlan
  | .whole => (s.ontology.directPlan s.leaveOut).followedBy s.ontology.inheritancePlan

def completionRecord (c : Counters) : Record :=
  ⟨.info, .resolution, "Resolution completed: " ++ Text.ofNat c.members ++ " members, "
    ++ Text.ofNat c.ranges ++ " ranges, " ++ Text.ofNat c.inherited ++ " inherited, "
    ++ Text.ofNat c.dangling ++ " dangling"⟩

/-- Carries out a phase as far as it goes. -/
def resolve (s : Session) (phase : Phase) : Session × Logged Misshapen Unit :=
  let plan := s.plan phase
  let after := { s with progress := s.progress.run plan.steps }
  match plan.failure with
  | some m => (after, ⟨plan.log, .error m⟩)
  | none =>
    let completed := if phase = .whole then [completionRecord after.progress.counters] else []
    (after, ⟨plan.log ++ completed, .ok ()⟩)

def children (s : Session) : Children := s.progress.children

def counters (s : Session) : Counters := s.progress.counters

end Session

structure Resolved where
  ontology : Ontology
  children : Children
  counters : Counters

def Ontology.resolve (o : Ontology) (leaveOut : Bool) : Logged Misshapen Resolved :=
  let (s, outcome) := (Session.start o leaveOut).resolve .whole
  ⟨outcome.log, outcome.result.map fun _ ↦ ⟨o, s.children, s.counters⟩⟩

end OntologyStructs
