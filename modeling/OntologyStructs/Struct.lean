import OntologyStructs.Naming
import OntologyStructs.Ontology
import OntologyStructs.Ontology.Children
import OntologyStructs.Text.Blank

namespace OntologyStructs

/-- A field of a struct. One that refers holds a list of structs of its type. -/
structure Field where
  name : Text
  typeName : Text
  tag : Text
  refers : Bool := false
  deriving DecidableEq, Repr

structure Struct where
  name : Text
  source : Text
  fields : List Field
  doc : List Text
  deriving DecidableEq, Repr

namespace Struct

def header : List Field := [⟨"Context", "string", "@context", false⟩, ⟨"Type", "string", "@type", false⟩]

def childFields (s : Struct) : List Field := s.fields.filter Field.refers

def childField (keepVocabulary : Bool) (child : Text) : Field :=
  let name := Naming.typeName keepVocabulary child
  ⟨name, name, child, true⟩

def ofNode (keepVocabulary : Bool) (n : Node) (children : List Text) : Struct where
  name := Naming.typeName keepVocabulary n.id
  source := n.id
  fields := header ++ children.map (childField keepVocabulary)
  doc := n.comment.value.lines.map Text.trimRight

def all (keepVocabulary : Bool) (o : Ontology) (c : Children) : List Struct :=
  o.indexed.filterMap fun p ↦ (o.nodes[p]?).map fun n ↦ ofNode keepVocabulary n (c.listAt p)

def collisions (s : Struct) : List Text :=
  let names := s.fields.map Field.name
  Text.sort ((names.filter fun n ↦ 1 < names.count n).eraseDups)

def collisionLog (s : Struct) : Log :=
  match s.collisions with
  | [] => []
  | names => [⟨.warning, .structs,
      "Declaration " ++ s.name ++ " (" ++ s.source ++ ") has colliding field names: "
        ++ Text.join ", " names⟩]

def sharedNameRecord (first : Text) (s : Struct) : Record :=
  ⟨.warning, .structs,
    "Identifiers " ++ first ++ " and " ++ s.source ++ " both map to type name " ++ s.name⟩

/-- For each struct its own collisions, and then whether an earlier one has its name. `seen` holds
the earlier names with the first identifier of each. -/
def nameLog (seen : Assoc Text Text) : List Struct → Log
  | [] => []
  | s :: ss => match seen.get? s.name with
    | none => s.collisionLog ++ nameLog (seen.insert s.name s.source) ss
    | some first =>
      s.collisionLog ++ sharedNameRecord first s :: nameLog seen ss

def totalChildFields (ss : List Struct) : Nat := (ss.flatMap childFields).length

def log (ss : List Struct) : Log :=
  nameLog [] ss ++ [⟨.info, .structs,
    "Generated " ++ Text.ofNat ss.length ++ " declarations with "
      ++ Text.ofNat (totalChildFields ss) ++ " child fields"⟩]

end Struct

end OntologyStructs
