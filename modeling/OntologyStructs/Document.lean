import OntologyStructs.Node

namespace OntologyStructs

structure Document where
  context : List (Text × Json)
  nodes : List Node

namespace Document

def contextKey : Text := "@context"

def graphKey : Text := "@graph"

def readContext (v : Json) : Checked (List (Text × Json)) :=
  Checked.below (.member contextKey) <| match v.get? contextKey with
    | none => .ok []
    | some (.object members) => .ok members
    | some _ => Checked.reject .objectExpected

/-- Reads entries, the first of which is number `i`. -/
def readNodes (i : Nat) : List Json → Checked (List Node)
  | [] => .ok []
  | v :: vs => match (Node.read v).below (.item i), readNodes (i + 1) vs with
    | .ok n, .ok ns => .ok (n :: ns)
    | n, ns => .error (n.issues ++ ns.issues)

def readGraph (v : Json) : Checked (List Node) :=
  Checked.below (.member graphKey) <| match v.get? graphKey with
    | none => Checked.reject .missing
    | some (.list items) => readNodes 0 items
    | some _ => Checked.reject .listExpected

def check (v : Json) : Checked Document :=
  match v with
  | .object _ => match readContext v, readGraph v with
    | .ok context, .ok nodes => .ok { context, nodes }
    | context, nodes => .error (context.issues ++ nodes.issues)
  | _ => Checked.reject (.recordExpected .document)

end Document

end OntologyStructs
