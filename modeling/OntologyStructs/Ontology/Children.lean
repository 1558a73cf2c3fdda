import OntologyStructs.Text

namespace OntologyStructs

/-- Per position of an entry, the identifiers of its children in the order in which they came. -/
abbrev Children := List (List Text)

namespace Children

def ofSize (size : Nat) : Children := List.replicate size []

def listAt (c : Children) (p : Nat) : List Text := c.getD p []

/-- Puts an identifier last unless it is there, and says whether it was new. -/
def add (c : Children) (p : Nat) (id : Text) : Children × Bool :=
  if id ∈ c.listAt p then (c, false) else (c.modify p (· ++ [id]), true)

def addAll (c : Children) (p : Nat) : List Text → Children × Nat
  | [] => (c, 0)
  | id :: ids =>
    let (c, isNew) := c.add p id
    let (c, count) := addAll c p ids
    (c, if isNew then count + 1 else count)

def total (c : Children) : Nat := c.flatten.length

end Children

end OntologyStructs
