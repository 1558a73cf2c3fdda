import OntologyStructs.Ontology.Links

namespace OntologyStructs

/-- An order in which to visit positions, given what each of them is below. -/
structure VisitingOrder where
  /-- Links from a position to all that is above it. -/
  above : Links
  /-- Per position, the bits of what is above it and not below it. -/
  strictlyAbove : Array Nat

namespace VisitingOrder

def ofTargets (targets : List (List Nat)) : VisitingOrder :=
  let above := (Links.ofTargets targets).closure
  let positions := List.range targets.length
  { above
    strictlyAbove := (positions.map fun p ↦
      Links.row (positions.filter fun q ↦ above.has p q && !above.has q p)).toArray }

variable (v : VisitingOrder)

/-- Whether nothing that still waits is strictly above the position. -/
def ready (waiting : Nat) (p : Nat) : Bool := v.strictlyAbove.getD p 0 &&& waiting == 0

def together (p q : Nat) : Bool := p == q || v.above.bothWays p q

/-- Takes the first position that is ready and all that are in a circle with it, again and again. -/
def visit : Nat → List Nat → List Nat
  | 0, _ => []
  | fuel + 1, waiting =>
    match waiting.find? (v.ready (Links.row waiting)) with
    | none => []
    | some p =>
      waiting.filter (v.together p) ++ visit fuel (waiting.filter fun q ↦ !v.together p q)

end VisitingOrder

/-- All positions, so that what a position is below comes before it, circles stay together, and where
there is a choice the least position goes first. -/
def visitingOrder (targets : List (List Nat)) : List Nat :=
  (VisitingOrder.ofTargets targets).visit targets.length (List.range targets.length)

end OntologyStructs
