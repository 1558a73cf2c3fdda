import OntologyStructs.Text

namespace OntologyStructs

/-- A set of code points, given by the ascending code points at which membership changes. Below the
first of them nothing is a member. -/
structure Ranges where
  boundaries : List Nat

def Ranges.contains (s : Ranges) (c : CodePoint) : Bool :=
  (s.boundaries.takeWhile (· ≤ c.val)).length % 2 == 1

end OntologyStructs
