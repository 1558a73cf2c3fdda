import OntologyStructs.Dump.Saving
import OntologyStructs.Ontology.Session
import OntologyStructs.Struct.GoFile

namespace OntologyStructs

structure Resolver where
  leaveOut : Bool
  counters : Counters := {}

/-- An ontology at work. All resolvers share its children. -/
structure Workbench where
  ontology : Ontology
  children : Children
  resolvers : List Resolver
  files : FileTree

inductive Operation
  | addChild (position : Nat) (id : Text)
  | makeResolver (leaveOut : Bool)
  | resolve (resolver : Nat) (phase : Phase)
  /-- The whole resolution, by a resolver that is made for it alone. -/
  | resolveOnce (leaveOut : Bool)
  | lookUp (id : Text)
  | findGroups
  | showGraph
  | showEntry (position : Nat)
  | declare (keepVocabulary : Bool) (position : Nat)
  | declareAll (keepVocabulary : Bool)
  | render (keepVocabulary : Bool) (package : Text)
  | saveResolved (path : Path)
  | saveNodeLink (path : Path)

inductive OperationError
  | misshapen (m : Misshapen)
  | file (e : FileError)
  | noEntry (position : Nat)
  | noResolver (number : Nat)

inductive Answer
  | added (isNew : Bool)
  | counted (counters : Counters)
  | found (last first : Option Nat)
  | groups (groups : List (List Text))
  | graph (nodes : List Node) (edges : List (Text × Text))
  | entry (n : Node) (children : List Text)
  | structs (ss : List Struct)
  | source (t : Text)
  | saved

namespace Workbench

variable (b : Workbench)

def start (o : Ontology) (files : FileTree) : Workbench := ⟨o, .ofSize o.nodes.length, [], files⟩

def session (r : Resolver) : Session := ⟨b.ontology, ⟨b.children, r.counters⟩, r.leaveOut⟩

def answer (a : Answer) (log : Log := []) : Workbench × Logged OperationError Answer :=
  (b, ⟨log, .ok a⟩)

def refuse (e : OperationError) : Workbench × Logged OperationError Answer := (b, ⟨[], .error e⟩)

def resolveBy (r : Resolver) (phase : Phase) : Workbench × Resolver × Logged OperationError Answer :=
  let (s, outcome) := (b.session r).resolve phase
  ({ b with children := s.children }, { r with counters := s.counters },
    ⟨outcome.log, (outcome.result.mapError OperationError.misshapen).map fun _ ↦ .counted s.counters⟩)

def save (work : FileWork FileError Unit) : Workbench × Logged OperationError Answer :=
  let (files, outcome) := work.run b.files
  ({ b with files },
    ⟨outcome.log, (outcome.result.mapError OperationError.file).map fun _ ↦ .saved⟩)

def atEntry (position : Nat) (f : Node → Workbench × Logged OperationError Answer) :
    Workbench × Logged OperationError Answer :=
  match b.ontology.nodes[position]? with
  | none => b.refuse (.noEntry position)
  | some n => f n

/-- Carries out an operation. Where it fails, what it has done by then stays done. -/
def perform : Operation → Workbench × Logged OperationError Answer
  | .addChild position id => b.atEntry position fun _ ↦
    let (children, isNew) := b.children.add position id
    answer { b with children } (.added isNew)
  | .makeResolver leaveOut =>
    answer { b with resolvers := b.resolvers ++ [⟨leaveOut, {}⟩] } (.counted {})
  | .resolve number phase => match b.resolvers[number]? with
    | none => b.refuse (.noResolver number)
    | some r =>
      let (b, r, outcome) := b.resolveBy r phase
      ({ b with resolvers := b.resolvers.set number r }, outcome)
  | .resolveOnce leaveOut =>
    let (b, _, outcome) := b.resolveBy ⟨leaveOut, {}⟩ .whole
    (b, outcome)
  | .lookUp id => b.answer (.found (b.ontology.position? id) (b.ontology.firstPosition? id))
  | .findGroups => b.answer (.groups (b.ontology.recursiveGroups b.children))
  | .showGraph =>
    b.answer (.graph (b.ontology.indexed.filterMap (b.ontology.nodes[·]?)) (b.ontology.edges b.children))
  | .showEntry position => b.atEntry position fun n ↦
    b.answer (.entry n (b.children.listAt position))
  | .declare keep position => b.atEntry position fun n ↦
    let s := Struct.ofNode keep n (b.children.listAt position)
    b.answer (.structs [s]) s.collisionLog
  | .declareAll keep =>
    let ss := Struct.all keep b.ontology b.children
    b.answer (.structs ss) (Struct.log ss)
  | .render keep package =>
    let ss := Struct.all keep b.ontology b.children
    b.answer (.source (GoFile.render package ss)) (Struct.log ss ++ GoFile.log package ss)
  | .saveResolved p => b.save (Dump.saveResolved b.ontology b.children p)
  | .saveNodeLink p => b.save (Dump.saveNodeLink b.ontology b.children p)

def run (ops : List Operation) : Workbench := ops.foldl (fun b op ↦ (b.perform op).1) b

end Workbench

end OntologyStructs
