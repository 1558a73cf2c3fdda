import OntologyStructs.Ontology.ChildGraph

namespace OntologyStructs.Dump

variable (o : Ontology) (c : Children)

def resolved : Json :=
  .object [
    (Document.contextKey, .object o.context),
    (Document.graphKey, .list (o.nodes.zipIdx.map fun (n, p) ↦ n.toJsonWith (c.listAt p)))]

def graphNode (n : Node) : Json :=
  .object [
    ("type", .list (n.types.toList.map .text)),
    ("label", .text n.label.value),
    ("id", .text n.id)]

def graphEdge (e : Text × Text) : Json := .object [("source", .text e.1), ("target", .text e.2)]

def nodeLink : Json :=
  .object [
    ("directed", .bool true),
    ("multigraph", .bool false),
    ("graph", .object []),
    ("nodes", .list (o.indexed.filterMap fun p ↦ (o.nodes[p]?).map graphNode)),
    ("edges", .list ((o.edges c).map graphEdge))]

end OntologyStructs.Dump
