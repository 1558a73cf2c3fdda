namespace OntologyStructs

/-- Pairs in the order in which their keys first came. -/
abbrev Assoc (α β : Type) := List (α × β)

namespace Assoc

variable {α β : Type} [DecidableEq α]

def get? (k : α) : Assoc α β → Option β
  | [] => none
  | (k', v) :: r => if k = k' then some v else get? k r

/-- A key that is there keeps its place and gets the new value; a new key comes last. -/
def insert (k : α) (v : β) : Assoc α β → Assoc α β
  | [] => [(k, v)]
  | (k', v') :: r => if k = k' then (k', v) :: r else (k', v') :: insert k v r

def contains (k : α) (m : Assoc α β) : Bool := (m.get? k).isSome

def keys (m : Assoc α β) : List α := m.map (·.1)

def values (m : Assoc α β) : List β := m.map (·.2)

def ofList (ps : List (α × β)) : Assoc α β := ps.foldl (fun m p ↦ m.insert p.1 p.2) []

end Assoc

end OntologyStructs
