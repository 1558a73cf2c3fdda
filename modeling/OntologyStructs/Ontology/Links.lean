namespace OntologyStructs

/-- A relation between the numbers below a bound. Row `i` has bit `j` if `i` is linked to `j`. -/
structure Links where
  rows : Array Nat

namespace Links

def has (l : Links) (i j : Nat) : Bool := (l.rows.getD i 0).testBit j

def row (js : List Nat) : Nat := js.foldl (fun bits j ↦ bits ||| 1 <<< j) 0

def ofTargets (targets : List (List Nat)) : Links := ⟨(targets.map row).toArray⟩

def through (l : Links) (k : Nat) : Links :=
  let step := l.rows.getD k 0
  ⟨l.rows.map fun bits ↦ if bits.testBit k then bits ||| step else bits⟩

def closure (l : Links) : Links := (List.range l.rows.size).foldl through l

def bothWays (l : Links) (i j : Nat) : Bool := l.has i j && l.has j i

end Links

end OntologyStructs
