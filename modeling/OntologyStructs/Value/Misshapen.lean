import OntologyStructs.Json.Printer

namespace OntologyStructs

inductive ValueKind
  | reference
  | typeSet
  | langText
  deriving DecidableEq, Repr

def ValueKind.title : ValueKind → Text
  | reference => "identifier reference"
  | typeSet => "string or string list"
  | langText => "localized text"

structure Misshapen where
  kind : ValueKind
  value : Json

def Misshapen.message (m : Misshapen) : Text :=
  "cannot decode " ++ m.kind.title ++ ": " ++ m.value.shown

end OntologyStructs
