import OntologyStructs.Files.Path
import OntologyStructs.Issue
import OntologyStructs.Text.Blank

namespace OntologyStructs

inductive SettingKey
  | inputPath
  | outputPath
  | packageName
  | dumpPath
  | nodeLinkPath
  | strictDuplicates
  | excludeSuperseded
  | keepVocabulary
  | format
  deriving DecidableEq, Repr

namespace SettingKey

def name : SettingKey → Text
  | inputPath => "input_path"
  | outputPath => "output_path"
  | packageName => "package_name"
  | dumpPath => "dump_path"
  | nodeLinkPath => "node_link_path"
  | strictDuplicates => "strict_duplicates"
  | excludeSuperseded => "exclude_superseded"
  | keepVocabulary => "keep_vocab_prefix"
  | format => "gofmt"

def all : List SettingKey :=
  [inputPath, outputPath, packageName, dumpPath, nodeLinkPath, strictDuplicates, excludeSuperseded,
    keepVocabulary, format]

end SettingKey

/-- What a setting may be given, before it is checked. Of lists, tables and moments only that they
are there counts. -/
inductive SettingValue
  | null
  | bool (b : Bool)
  | int (n : Int)
  | float (x : Binary64)
  | text (t : Text)
  | other
  deriving DecidableEq, Repr

abbrev GivenSettings := Assoc Text SettingValue

structure Settings where
  inputPath : Path := .ofText "schemaorg-current-https.jsonld"
  outputPath : Path := .ofText "structschema.go"
  packageName : Text := "structschema"
  /-- Where the resolved document is dumped. -/
  dumpPath : Option Path := none
  /-- Where the child graph is dumped. -/
  nodeLinkPath : Option Path := none
  strictDuplicates : Bool := false
  excludeSuperseded : Bool := false
  keepVocabulary : Bool := false
  /-- Whether a formatter goes over the file. -/
  format : Bool := false
  deriving DecidableEq, Repr

namespace Settings

/-- Whether Go takes the text as the name of a package. A line feed at the end is let through. -/
def isPackageName (t : Text) : Bool :=
  match t.withoutFinalLineFeed with
  | [] => false
  | c :: r => (c.isLower || c = '_') && r.all fun c ↦ c.isLower || c.isDigit || c = '_'

def readPath : SettingValue → Checked Path
  | .text t => .ok (.ofText t)
  | _ => Checked.reject .pathExpected

def readPath? : SettingValue → Checked (Option Path)
  | .null => .ok none
  | v => (readPath v).map some

def readPackageName : SettingValue → Checked Text
  | .text t => if isPackageName t then .ok t else Checked.reject (.badPackageName t)
  | _ => Checked.reject .textExpected

def flagWords : List (Text × Bool) :=
  [("0", false), ("off", false), ("f", false), ("false", false), ("n", false), ("no", false),
    ("1", true), ("on", true), ("t", true), ("true", true), ("y", true), ("yes", true)]

def isWord64 (n : Int) : Bool := -0x8000000000000000 ≤ n && n < 0x8000000000000000

/-- Besides truth values, zero and one count as such, and some words in any case. -/
def readFlag : SettingValue → Checked Bool
  | .bool b => .ok b
  | .int n =>
    if n = 0 then .ok false
    else if n = 1 then .ok true
    else Checked.reject (if isWord64 n then .boolUnreadable else .boolExpected)
  | .float x =>
    if x = .zero false ∨ x = .zero true then .ok false
    else if x = .one then .ok true
    else Checked.reject .boolExpected
  | .text t => match Assoc.get? t.lower flagWords with
    | some b => .ok b
    | none => Checked.reject .boolUnreadable
  | _ => Checked.reject .boolExpected

def readSetting {α : Type} (given : GivenSettings) (key : SettingKey)
    (read : SettingValue → Checked α) (default : α) : Checked α :=
  match given.get? key.name with
  | none => .ok default
  | some v => (read v).below (.member key.name)

def unknownNames (given : GivenSettings) : List Text :=
  given.keys.filter fun k ↦ !(SettingKey.all.map SettingKey.name).contains k

def readNoOthers (given : GivenSettings) : Checked Unit :=
  match unknownNames given with
  | [] => .ok ()
  | ks => .error (ks.map fun k ↦ ⟨[.member k], .unknownMember⟩)

/-- Checks settings, or finds all that is wrong with them. Unknown names are found last. -/
def check (given : GivenSettings) : Checked Settings :=
  let defaults : Settings := {}
  Checked.pure Settings.mk
    |>.apply (readSetting given .inputPath readPath defaults.inputPath)
    |>.apply (readSetting given .outputPath readPath defaults.outputPath)
    |>.apply (readSetting given .packageName readPackageName defaults.packageName)
    |>.apply (readSetting given .dumpPath readPath? defaults.dumpPath)
    |>.apply (readSetting given .nodeLinkPath readPath? defaults.nodeLinkPath)
    |>.apply (readSetting given .strictDuplicates readFlag defaults.strictDuplicates)
    |>.apply (readSetting given .excludeSuperseded readFlag defaults.excludeSuperseded)
    |>.apply (readSetting given .keepVocabulary readFlag defaults.keepVocabulary)
    |>.apply (readSetting given .format readFlag defaults.format)
    |>.before (readNoOthers given)

def givenPath : Option Path → SettingValue
  | none => .null
  | some p => .text p.toText

def get (s : Settings) : SettingKey → SettingValue
  | .inputPath => .text s.inputPath.toText
  | .outputPath => .text s.outputPath.toText
  | .packageName => .text s.packageName
  | .dumpPath => givenPath s.dumpPath
  | .nodeLinkPath => givenPath s.nodeLinkPath
  | .strictDuplicates => .bool s.strictDuplicates
  | .excludeSuperseded => .bool s.excludeSuperseded
  | .keepVocabulary => .bool s.keepVocabulary
  | .format => .bool s.format

def toGiven (s : Settings) : GivenSettings := SettingKey.all.map fun k ↦ (k.name, s.get k)

/-- The settings with others over them, checked again. Nulls do not count. -/
def override (s : Settings) (updates : GivenSettings) : Checked Settings :=
  match updates.filter fun (_, v) ↦ v ≠ .null with
  | [] => .ok s
  | updates => check (updates.foldl (fun given (k, v) ↦ given.insert k v) s.toGiven)

end Settings

end OntologyStructs
