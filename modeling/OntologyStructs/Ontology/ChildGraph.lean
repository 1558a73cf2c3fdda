import OntologyStructs.Ontology
import OntologyStructs.Ontology.Children
import OntologyStructs.Ontology.Links

namespace OntologyStructs.Ontology

variable (o : Ontology) (c : Children)

def childLists : List (Text × List Text) :=
  o.index.positions.map fun (id, p) ↦ (id, (c.listAt p).filter o.knows)

def edges : List (Text × Text) :=
  (o.childLists c).flatMap fun (id, children) ↦ children.map fun child ↦ (id, child)

def rank? (id : Text) : Option Nat := o.ids.findIdx? (· == id)

/-- Descent among the ranks of identifiers, by one step or more. -/
def descent : Links :=
  (Links.ofTargets ((o.childLists c).map fun (_, children) ↦ children.filterMap o.rank?)).closure

/-- The identifiers that descend from themselves, in groups that descend from each other. Groups and
their members are sorted. -/
def recursiveGroups : List (List Text) :=
  let descent := o.descent c
  let circular := o.ids.zipIdx.filter fun (_, k) ↦ descent.has k k
  let groups := circular.filterMap fun (_, k) ↦
    let group := circular.filter fun (_, j) ↦ descent.bothWays k j
    if group.head?.map (·.2) = some k then some (Text.sort (group.map (·.1))) else none
  groups.mergeSort (Text.listLe Text.le)

end OntologyStructs.Ontology
