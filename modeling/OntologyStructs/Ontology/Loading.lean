import OntologyStructs.Document.Source
import OntologyStructs.Ontology.Session

namespace OntologyStructs

inductive LoadError
  | document (e : DocumentError)
  | duplicate (e : DuplicateError)
  | misshapen (m : Misshapen)

def LoadError.message : LoadError → Text
  | document e => e.message
  | duplicate e => e.message
  | misshapen m => m.message

def Resolved.load (source : Source) (strict leaveOut : Bool) : Logged LoadError Resolved := do
  let d ← (Document.read source).mapError .document
  let o ← (Ontology.build strict d).mapError .duplicate
  (o.resolve leaveOut).mapError .misshapen

end OntologyStructs
