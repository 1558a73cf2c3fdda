import OntologyStructs.Value.Misshapen

namespace OntologyStructs

/-- The types of an entry: one at least, in order. -/
structure TypeSet where
  primary : Text
  others : List Text
  deriving DecidableEq, Repr

namespace TypeSet

def toList (s : TypeSet) : List Text := s.primary :: s.others

def ofList? : List Text → Option TypeSet
  | [] => none
  | t :: ts => some ⟨t, ts⟩

def contains (s : TypeSet) (t : Text) : Bool := s.toList.contains t

def size (s : TypeSet) : Nat := s.toList.length

def ofValues (values : List Text) : Except Misshapen TypeSet :=
  match ofList? values with
  | some s => .ok s
  | none => .error ⟨.typeSet, .list (values.map .text)⟩

def read (v : Json) : Except Misshapen TypeSet :=
  match v.text?, v.texts? with
  | some t, _ => .ok ⟨t, []⟩
  | none, some ts => ofValues ts
  | none, none => .error ⟨.typeSet, v⟩

def toJson (s : TypeSet) : Json :=
  if s.others.isEmpty then .text s.primary else .list (s.toList.map .text)

end TypeSet

end OntologyStructs
