import OntologyStructs.Encoding.Utf8
import OntologyStructs.Log
import OntologyStructs.Program
import OntologyStructs.Text.Blank

namespace OntologyStructs

inductive FormatError
  /-- The formatter did not take the source. -/
  | refused (errors : Text)
  | timedOut
  /-- The system could not start the formatter. -/
  | unstartable (reason : Text)
  /-- What the formatter wrote is no UTF-8. -/
  | undecodable (fault : DecodeFault)
  | unencodable (fault : EncodeFault)
  deriving DecidableEq, Repr

def FormatError.message : FormatError → Text
  | refused errors => "gofmt failed: " ++ errors.trim
  | timedOut => "gofmt timed out"
  | unstartable reason => reason
  | undecodable fault => fault.message
  | unencodable fault => fault.message

structure Formatter where
  name : Text
  program? : Option Program

namespace Formatter

def missingRecord (name : Text) : Record :=
  ⟨.warning, .goFile, name ++ " not found on PATH, writing unformatted source"⟩

def readOutput (bytes : Bytes) : Except FormatError Text :=
  ((Utf8.decode false bytes).map Text.unifyLineEnds).mapError .undecodable

def run (program : Program) (source : Text) : Except FormatError Text :=
  match program with
  | .unstartable reason => throw (.unstartable reason)
  | .startable ending? => do
    let input ← (Utf8.encode source).mapError .unencodable
    match ending? input with
    | none => throw .timedOut
    | some ending =>
      let output ← readOutput ending.output
      let errors ← readOutput ending.errors
      if ending.status = 0 then return output else throw (.refused errors)

/-- The source as the formatter writes it, or as it is if there is no formatter. -/
def format (f : Formatter) (source : Text) : Logged FormatError Text :=
  match f.program? with
  | none => ⟨[missingRecord f.name], .ok source⟩
  | some program => .ofExcept (run program source)

end Formatter

end OntologyStructs
