import OntologyStructs.Encoding.Utf8
import OntologyStructs.Files.Tree
import OntologyStructs.Json.Reader
import OntologyStructs.Log
import OntologyStructs.Settings
import OntologyStructs.Toml.Reader

namespace OntologyStructs

namespace SettingValue

def ofJson : Json → SettingValue
  | .null => .null
  | .bool b => .bool b
  | .int n => .int n
  | .float x => .float x
  | .text t => .text t
  | .list _ | .object _ => .other

def ofToml : Toml → SettingValue
  | .bool b => .bool b
  | .int n => .int n
  | .float x => .float x
  | .text t => .text t
  | .moment | .list _ | .table _ => .other

end SettingValue

def GivenSettings.ofMembers (members : List (Text × Json)) : GivenSettings :=
  members.map fun (k, v) ↦ (k, .ofJson v)

inductive SettingsFormat
  | json
  | toml
  deriving DecidableEq, Repr

namespace SettingsFormat

def name : SettingsFormat → Text
  | json => "json"
  | toml => "toml"

/-- JSON begins with a brace or a bracket. -/
def guess (t : Text) : SettingsFormat :=
  match t.trimLeft with
  | c :: _ => if c = '{' ∨ c = '[' then json else toml
  | [] => toml

/-- The format of a file: by the end of its name, or else by its text. -/
def ofFile (p : Path) (t : Text) : SettingsFormat :=
  let suffix := Text.lower p.suffix
  if suffix = ".toml" ∨ suffix = ".tml" then toml
  else if suffix = ".json" then json
  else guess t

end SettingsFormat

inductive UnsupportedSource
  | bool
  | int
  | float
  | list
  deriving DecidableEq, Repr

def UnsupportedSource.name : UnsupportedSource → Text
  | bool => "bool"
  | int => "int"
  | float => "float"
  | list => "list"

inductive SettingsError
  | unsupported (source : UnsupportedSource)
  | file (e : FileError)
  | undecodable (fault : DecodeFault)
  | malformedJson (fault : Json.Fault) (place : Json.Place)
  | malformedToml
  /-- A whole number is written with more digits than are read. -/
  | longNumber (digits : Nat)
  | objectExpected
  | invalid (issues : List Issue)

namespace SettingsError

def message : SettingsError → Text
  | unsupported source => "Unsupported config source type: <class '" ++ source.name ++ "'>"
  | file e => e.message
  | undecodable fault => fault.message
  | malformedJson fault place =>
    "Invalid JSON configuration: " ++ (Json.ReadError.malformed fault place).message
  | malformedToml => "Invalid TOML configuration"
  | longNumber digits => (Json.ReadError.longNumber digits).message
  | objectExpected => "Top-level configuration must be a mapping/dict"
  | invalid issues => "Invalid configuration: " ++ Model.settings.rejection issues

end SettingsError

namespace Settings

def defaultsRecord : Record :=
  ⟨.debug, .settings, "No config source provided; using defaults"⟩

def fileRecord (p : Path) (format : SettingsFormat) : Record :=
  ⟨.info, .settings,
    "Loading configuration from file: " ++ p.toText ++ " (fmt=" ++ format.name ++ ")"⟩

def inlineRecord (format : SettingsFormat) : Record :=
  ⟨.info, .settings, "Loading configuration from inline " ++ format.name ++ " string"⟩

def parse (format : SettingsFormat) (t : Text) : Except SettingsError GivenSettings :=
  match format with
  | .json => match Json.read t with
    | .ok (.object members) => .ok (.ofMembers members)
    | .ok _ => .error .objectExpected
    | .error (.malformed fault place) => .error (.malformedJson fault place)
    | .error (.longNumber digits) => .error (.longNumber digits)
  | .toml => match Toml.read t with
    | .ok table => .ok (table.map fun (k, v) ↦ (k, .ofToml v))
    | .error .malformed => .error .malformedToml
    | .error (.longNumber digits) => .error (.longNumber digits)

def readText (tree : FileTree) (p : Path) : Except SettingsError Text := do
  let bytes ← (tree.read p).mapError .file
  let text ← (Utf8.decode false bytes).mapError .undecodable
  return text.unifyLineEnds

/-- The text that settings are given in: the content of the file that `t` names, or else `t`
itself. -/
def locate (tree : FileTree) (t : Text) : Logged SettingsError (SettingsFormat × Text) := do
  let p := Path.ofText t
  if ← Logged.ofExcept ((tree.isFile p).mapError .file) then
    let content ← Logged.ofExcept (readText tree p)
    let format := SettingsFormat.ofFile p content
    Logged.tell [fileRecord p format]
    return (format, content)
  else
    let format := SettingsFormat.guess t
    Logged.tell [inlineRecord format]
    return (format, t)

def ofGiven (given : GivenSettings) : Except SettingsError Settings :=
  (check given).mapError .invalid

/-- Settings from a source: the defaults for null, what is given for an object, and for text what it
says or what the file says that it names. -/
def load (tree : FileTree) : Json → Logged SettingsError Settings
  | .null => ⟨[defaultsRecord], .ok {}⟩
  | .object members => .ofExcept (ofGiven (.ofMembers members))
  | .text t => do
    let (format, text) ← locate tree t
    Logged.ofExcept (parse format text >>= ofGiven)
  | .bool _ => .ofExcept (.error (.unsupported .bool))
  | .int _ => .ofExcept (.error (.unsupported .int))
  | .float _ => .ofExcept (.error (.unsupported .float))
  | .list _ => .ofExcept (.error (.unsupported .list))

end Settings

end OntologyStructs
