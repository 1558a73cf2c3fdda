import OntologyStructs.Value.Misshapen

namespace OntologyStructs

inductive ReferenceForm
  | object
  | objects
  | ids
  deriving DecidableEq, Repr

structure Reference where
  form : ReferenceForm
  ids : List Text
  deriving DecidableEq, Repr

namespace Reference

/-- The identifier of an object; its other members do not matter. -/
def objectId? (v : Json) : Option Text := (v.get? "@id").bind Json.text?

def objectIds? : Json → Option (List Text)
  | .list items => items.mapM objectId?
  | _ => none

/-- One object, a list of objects, or a list of identifiers; the empty list is one of objects. -/
def read (v : Json) : Except Misshapen Reference :=
  match objectId? v, objectIds? v, v.texts? with
  | some id, _, _ => .ok ⟨.object, [id]⟩
  | none, some ids, _ => .ok ⟨.objects, ids⟩
  | none, none, some ids => .ok ⟨.ids, ids⟩
  | none, none, none => .error ⟨.reference, v⟩

end Reference

end OntologyStructs
