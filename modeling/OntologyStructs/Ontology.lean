import OntologyStructs.Document
import OntologyStructs.Log
import OntologyStructs.Ontology.Index

namespace OntologyStructs

structure Ontology where
  context : List (Text × Json)
  nodes : List Node
  index : Index
  index_eq : index = Index.ofIds (nodes.map Node.id) := by rfl

structure DuplicateError where
  id : Text
  deriving DecidableEq, Repr

def DuplicateError.message (e : DuplicateError) : Text := "duplicate node identifier: " ++ e.id

namespace Ontology

variable (o : Ontology)

/-- The position of the last entry with the identifier. -/
def position? (id : Text) : Option Nat := o.index.positions.get? id

def get? (id : Text) : Option Node := (o.position? id).bind (o.nodes[·]?)

def knows (id : Text) : Bool := (o.position? id).isSome

def firstPosition? (id : Text) : Option Nat := o.nodes.findIdx? fun n ↦ n.id == id

def ids : List Text := o.index.positions.keys

def indexed : List Nat := o.index.positions.values

def size : Nat := o.index.positions.length

def duplicates : List Text := o.index.repeats.map Repeat.id

def repeatRecord (r : Repeat) : Record :=
  let primary (position : Option Nat) : Text :=
    ((position.bind (o.nodes[·]?)).map fun n ↦ n.types.primary).getD []
  ⟨.warning, .ontology,
    "Duplicate node " ++ r.id ++ " (" ++ primary r.position ++ ") at position "
      ++ Text.ofNat r.position ++ " shadows position " ++ Text.ofNat r.shadowed
      ++ "; first defined as " ++ primary (o.firstPosition? r.id)⟩

def sizeRecord : Record :=
  ⟨.info, .ontology, "OntologyGraph built: " ++ Text.ofNat o.nodes.length ++ " nodes, "
    ++ Text.ofNat o.size ++ " unique identifiers"⟩

def log : Log := o.index.repeats.map o.repeatRecord ++ [o.sizeRecord]

def ofDocument (d : Document) : Ontology where
  context := d.context
  nodes := d.nodes
  index := Index.ofIds (d.nodes.map Node.id)

/-- Indexes a document; with `strict`, the first repeat of an identifier is an error. -/
def build (strict : Bool) (d : Document) : Logged DuplicateError Ontology :=
  let o := ofDocument d
  match strict, o.index.repeats with
  | true, r :: _ => ⟨[], .error ⟨r.id⟩⟩
  | _, _ => ⟨o.log, .ok o⟩

end Ontology

end OntologyStructs
