import OntologyStructs.Document
import OntologyStructs.Encoding.Detected
import OntologyStructs.Json.Reader
import OntologyStructs.Log

namespace OntologyStructs

inductive DocumentError
  | undecodable (fault : DecodeFault)
  | unreadable (cause : Json.ReadError)
  /-- The first value that fits none of its spellings, wherever else the document is wrong too. -/
  | misshapen (m : Misshapen)
  | invalid (issues : List Issue)

def DocumentError.message : DocumentError → Text
  | undecodable fault => "failed to decode JSON: " ++ fault.message
  | unreadable (.longNumber digits) => (Json.ReadError.longNumber digits).message
  | unreadable cause => "failed to decode JSON: " ++ cause.message
  | misshapen m => m.message
  | invalid issues => "invalid ontology document: " ++ Model.document.rejection issues

/-- Where a document comes from: bytes in an encoding to be found out, or text. -/
inductive Source
  | bytes (bytes : Bytes)
  | text (text : Text)

namespace Document

def firstMisshapen : List Issue → Option (List Selector × Misshapen)
  | [] => none
  | ⟨place, .misshapen m⟩ :: _ => some (place, m)
  | _ :: is => firstMisshapen is

def misshapenRecord (place : List Selector) (m : Misshapen) : Record :=
  ⟨.error, .document,
    "Invalid value at " ++ Text.join "." (place.map Selector.shown) ++ ": " ++ m.message⟩

/-- Reads a document from a value. A misshapen value goes before all other issues. -/
def ofJson (v : Json) : Logged DocumentError Document :=
  match check v with
  | .ok d => pure d
  | .error issues => match firstMisshapen issues with
    | some (place, m) => ⟨[misshapenRecord place m], .error (.misshapen m)⟩
    | none => ⟨[], .error (.invalid issues)⟩

def readValue : Source → Except DocumentError Json
  | .bytes bytes => do
    let text ← ((Encoding.detect bytes).decode bytes).mapError .undecodable
    (Json.readDecoded text).mapError .unreadable
  | .text text => (Json.read text).mapError .unreadable

def readRecord (d : Document) : Record :=
  ⟨.info, .document, "Decoded document: " ++ Text.ofNat d.nodes.length ++ " graph nodes, "
    ++ Text.ofNat d.context.length ++ " context prefixes"⟩

def read (source : Source) : Logged DocumentError Document := do
  let v ← Logged.ofExcept (readValue source)
  let d ← ofJson v
  Logged.tell [d.readRecord]
  return d

end Document

end OntologyStructs
