import OntologyStructs.Value.Misshapen

namespace OntologyStructs

/-- A text in a language, which is empty when none is named. -/
structure LangText where
  value : Text
  language : Text
  deriving DecidableEq, Repr

namespace LangText

def empty : LangText := ⟨[], []⟩

def textOrNull? : Json → Option Text
  | .text t => some t
  | .null => some []
  | _ => none

def ofObject? (v : Json) : Option LangText := do
  let value ← textOrNull? (← v.get? "@value")
  let language ← textOrNull? ((v.get? "@language").getD .null)
  return ⟨value, language⟩

def read (v : Json) : Except Misshapen LangText :=
  match textOrNull? v, ofObject? v with
  | some t, _ => .ok ⟨t, []⟩
  | none, some t => .ok t
  | none, none => .error ⟨.langText, v⟩

def toJson (t : LangText) : Json :=
  if t.language.isEmpty then .text t.value
  else .object [("@value", .text t.value), ("@language", .text t.language)]

end LangText

end OntologyStructs
