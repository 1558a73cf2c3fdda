import OntologyStructs.Assoc
import OntologyStructs.Number.Binary64
import OntologyStructs.Text

namespace OntologyStructs

/-- A JSON value. Whole numbers and numbers with a fraction are told apart, and members keep their
order. -/
inductive Json
  | null
  | bool (b : Bool)
  | int (n : Int)
  | float (x : Binary64)
  | text (t : Text)
  | list (items : List Json)
  | object (members : List (Text × Json))

namespace Json

instance : Inhabited Json := ⟨.null⟩

def isNull : Json → Bool
  | null => true
  | _ => false

def text? : Json → Option Text
  | text t => some t
  | _ => none

/-- The texts of a list that holds nothing else. -/
def texts? : Json → Option (List Text)
  | list items => items.mapM text?
  | _ => none

def get? (k : Text) : Json → Option Json
  | object members => Assoc.get? k members
  | _ => none

end Json

end OntologyStructs
