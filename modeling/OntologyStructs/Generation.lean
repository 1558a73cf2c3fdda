import OntologyStructs.Dump.Saving
import OntologyStructs.Ontology.Loading
import OntologyStructs.Program.Formatter
import OntologyStructs.Settings
import OntologyStructs.Struct.GoFile

namespace OntologyStructs

structure Generated where
  resolved : Resolved
  structs : List Struct
  source : Text

namespace Generated

def ofResolved (keepVocabulary : Bool) (package : Text) (r : Resolved) : Generated :=
  let structs := Struct.all keepVocabulary r.ontology r.children
  ⟨r, structs, GoFile.render package structs⟩

def log (package : Text) (g : Generated) : Log := Struct.log g.structs ++ GoFile.log package g.structs

end Generated

inductive GenerationError
  | load (e : LoadError)
  | file (e : FileError)
  | format (e : FormatError)

def GenerationError.message : GenerationError → Text
  | load e => e.message
  | file e => e.message
  | format e => e.message

namespace Generation

def readingRecord (p : Path) : Record := ⟨.info, .command, "Reading ontology: " ++ p.toText⟩

def writtenRecord (p : Path) : Record := ⟨.info, .command, "Wrote " ++ p.toText⟩

/-- All steps up to the source of the file, none of which writes anything. -/
def prepare (formatter : Formatter) (s : Settings) : FileWork GenerationError Generated := do
  FileWork.tell [readingRecord s.inputPath]
  let bytes ← (FileWork.read s.inputPath).mapError .file
  let resolved ← FileWork.ofLogged
    ((Resolved.load (.bytes bytes) s.strictDuplicates s.excludeSuperseded).mapError .load)
  let g := Generated.ofResolved s.keepVocabulary s.packageName resolved
  FileWork.tell (g.log s.packageName)
  if s.format then
    let source ← FileWork.ofLogged ((formatter.format g.source).mapError .format)
    return { g with source }
  else
    return g

def saveAt (save : Path → FileWork FileError Unit) : Option Path → FileWork GenerationError Unit
  | none => pure ()
  | some p => (save p).mapError .file

/-- Reads the ontology, and writes the dumps and at the very end the file of structs. -/
def run (formatter : Formatter) (s : Settings) : FileWork GenerationError Generated := do
  let g ← prepare formatter s
  saveAt (Dump.saveResolved g.resolved.ontology g.resolved.children) s.dumpPath
  saveAt (Dump.saveNodeLink g.resolved.ontology g.resolved.children) s.nodeLinkPath
  (FileWork.save s.outputPath [g.source]).mapError .file
  FileWork.tell [writtenRecord s.outputPath]
  return g

end Generation

abbrev Summary := List (Text × Text)

def Generated.summary (s : Settings) (g : Generated) : Summary :=
  let o := g.resolved.ontology
  let counters := g.resolved.counters
  let indexed := o.indexed.filterMap (o.nodes[·]?)
  let figure (name : Text) (n : Nat) : Text × Text := (name, Text.ofNat n)
  [figure "Graph nodes" o.nodes.length,
    figure "Classes" (indexed.countP Node.isClass),
    figure "Properties" (indexed.countP Node.isProperty),
    figure "Duplicate identifiers" o.duplicates.length,
    figure "Declarations" g.structs.length,
    figure "Child fields" (Struct.totalChildFields g.structs),
    figure "Inherited fields" counters.inherited,
    figure "Dangling references" counters.dangling]
  ++ (if s.excludeSuperseded then [figure "Superseded skipped" counters.superseded] else [])
  ++ [figure "Recursive type groups" (o.recursiveGroups g.resolved.children).length,
    (("Output" : Text), s.outputPath.toText)]

end OntologyStructs
