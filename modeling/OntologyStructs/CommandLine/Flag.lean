import OntologyStructs.Settings

namespace OntologyStructs.CommandLine

inductive Purpose
  | help
  | verbose
  | config
  | setting (key : SettingKey)
  deriving DecidableEq, Repr

structure Flag where
  spellings : List Text
  purpose : Purpose
  takesValue : Bool := false
  deriving DecidableEq, Repr

namespace Flag

def all : List Flag :=
  [⟨["-h", "--help"], .help, false⟩,
    ⟨["-v", "--verbose"], .verbose, false⟩,
    ⟨["-c", "--config"], .config, true⟩,
    ⟨["-i", "--input"], .setting .inputPath, true⟩,
    ⟨["-o", "--output"], .setting .outputPath, true⟩,
    ⟨["-p", "--package"], .setting .packageName, true⟩,
    ⟨["--dump-json"], .setting .dumpPath, true⟩,
    ⟨["--dump-node-link"], .setting .nodeLinkPath, true⟩,
    ⟨["--strict-duplicates"], .setting .strictDuplicates, false⟩,
    ⟨["--exclude-superseded"], .setting .excludeSuperseded, false⟩,
    ⟨["--keep-vocab-prefix"], .setting .keepVocabulary, false⟩,
    ⟨["--gofmt"], .setting .format, false⟩]

def spelled : List (Text × Flag) := all.flatMap fun f ↦ f.spellings.map fun s ↦ (s, f)

def find? (spelling : Text) : Option Flag := Assoc.get? spelling spelled

def shown (f : Flag) : Text := Text.join "/" f.spellings

end Flag

end OntologyStructs.CommandLine
