import OntologyStructs.Issue
import OntologyStructs.Value.LangText
import OntologyStructs.Value.TypeSet

namespace OntologyStructs

inductive Relation
  | inverseOf
  | supersededBy
  | subPropertyOf
  | domainIncludes
  | rangeIncludes
  | subClassOf
  deriving DecidableEq, Repr

namespace Relation

def key : Relation → Text
  | inverseOf => "schema:inverseOf"
  | supersededBy => "schema:supersededBy"
  | subPropertyOf => "rdfs:subPropertyOf"
  | domainIncludes => "schema:domainIncludes"
  | rangeIncludes => "schema:rangeIncludes"
  | subClassOf => "rdfs:subClassOf"

def all : List Relation :=
  [inverseOf, supersededBy, subPropertyOf, domainIncludes, rangeIncludes, subClassOf]

end Relation

/-- An entry of the vocabulary: a class, a property or a member of an enumeration. The values of its
relations are kept as they came, and are never null. -/
structure Node where
  id : Text
  types : TypeSet
  comment : LangText
  label : LangText
  relation : Relation → Option Json

namespace Node

def idKey : Text := "@id"

def typesKey : Text := "@type"

def commentKey : Text := "rdfs:comment"

def labelKey : Text := "rdfs:label"

def childrenKey : Text := "Childs"

def isClass (n : Node) : Bool := n.types.contains "rdfs:Class"

def isProperty (n : Node) : Bool := n.types.contains "rdf:Property"

def isSuperseded (n : Node) : Bool := (n.relation .supersededBy).isSome

def readId (v : Json) : Checked Text :=
  Checked.below (.member idKey) <| match v.get? idKey with
    | none => Checked.reject .missing
    | some (.text t) => .ok t
    | some _ => Checked.reject .textExpected

def readTypes (v : Json) : Checked TypeSet :=
  Checked.below (.member typesKey) <| match v.get? typesKey with
    | none => Checked.reject .missing
    | some v => (TypeSet.read v).mapError fun m ↦ [⟨[], .misshapen m⟩]

def readText (key : Text) (v : Json) : Checked LangText :=
  Checked.below (.member key) <|
    (LangText.read ((v.get? key).getD .null)).mapError fun m ↦ [⟨[], .misshapen m⟩]

/-- A relation that is null is not there. -/
def readRelation (v : Json) (r : Relation) : Option Json :=
  (v.get? r.key).filter fun value ↦ !value.isNull

/-- Reads an entry, or finds all that is wrong with it. Values of relations are not looked into. -/
def read (v : Json) : Checked Node :=
  match v with
  | .object _ =>
    match readId v, readTypes v, readText commentKey v, readText labelKey v with
    | .ok id, .ok types, .ok comment, .ok label =>
      .ok { id, types, comment, label, relation := readRelation v }
    | id, types, comment, label =>
      .error (id.issues ++ types.issues ++ comment.issues ++ label.issues)
  | _ => Checked.reject (.recordExpected .node)

def members (n : Node) : List (Text × Json) :=
  [(idKey, .text n.id), (typesKey, n.types.toJson), (commentKey, n.comment.toJson),
      (labelKey, n.label.toJson)]
    ++ Relation.all.filterMap fun r ↦ (n.relation r).map fun v ↦ (r.key, v)

def toJson (n : Node) : Json := .object n.members

def toJsonWith (n : Node) (children : List Text) : Json :=
  .object (n.members ++ [(childrenKey, .list (children.map .text))])

end Node

end OntologyStructs
