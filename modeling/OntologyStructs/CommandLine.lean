import OntologyStructs.CommandLine.Help
import OntologyStructs.Generation
import OntologyStructs.Settings.Loading

namespace OntologyStructs

namespace CommandLine

abbrev Use := Flag × Option Text

structure Reading where
  uses : List Use := []
  extra : List Text := []
  fault : Option UsageError := none

namespace Reading

def addUses (uses : List Use) (r : Reading) : Reading := { r with uses := uses ++ r.uses }

def addExtra (extra : List Text) (r : Reading) : Reading := { r with extra := extra ++ r.extra }

/-- A flag that needs a value takes the next argument, which must be plain. -/
def ofArguments : List Argument → Reading
  | [] => {}
  | .plain t :: as => (ofArguments as).addExtra [t]
  | .unknown t :: as => (ofArguments as).addExtra [t]
  | .flag flag isShort value :: as =>
    match value.elim (.ok ([], some flag)) (spread flag isShort), as with
    | .error e, _ => { fault := some e }
    | .ok (uses, none), as => (ofArguments as).addUses uses
    | .ok (uses, some last), as =>
      if !last.takesValue then (ofArguments as).addUses (uses ++ [(last, none)])
      else match as with
        | .plain t :: as => (ofArguments as).addUses (uses ++ [(last, some t)])
        | _ => { fault := some (.missingValue last) }

end Reading

structure Request where
  verbose : Bool := false
  /-- Where settings come from. -/
  config : Json := .null
  given : GivenSettings := []

/-- The value that an argument holds. The end mark is taken away, and the empty list is left. -/
def valueOf (t : Text) : Json := if t = endMark then .list [] else .text t

/-- Takes in a flag. One that comes again replaces the value of the first. -/
def Request.take (r : Request) : Use → Request
  | (flag, value) => match flag.purpose with
    | .help => r
    | .verbose => { r with verbose := true }
    | .config => { r with config := valueOf (value.getD []) }
    | .setting key =>
      { r with given := r.given.insert key.name (value.elim (.bool true) fun t ↦ .ofJson (valueOf t)) }

/-- What a command line asks for, if not for help. A call for help counts although something is wrong
behind it; what is too much counts last. -/
def read (args : List Text) : Except UsageError (Option Request) := do
  let (arguments, tail) ← Argument.ofTexts args
  let reading := Reading.ofArguments arguments
  if reading.uses.any fun (flag, _) ↦ flag.purpose = .help then return none
  else match reading.fault, reading.extra ++ tail with
    | some e, _ => throw e
    | none, [] => return some (reading.uses.foldl Request.take {})
    | none, extra => throw (.unrecognized extra)

inductive Failure
  | settings (e : SettingsError)
  | generation (e : GenerationError)

def Failure.message : Failure → Text
  | settings e => e.message
  | generation e => e.message

/-- Whether a failure is reported. All others escape the program. -/
def Failure.isReported : Failure → Bool
  | settings e => match e with
    | .unsupported _ | .undecodable _ | .longNumber _ => false
    | .file e => e.isSystem
    | .malformedJson _ _ | .malformedToml | .objectExpected | .invalid _ => true
  | generation e => match e with
    | .load (.document (.unreadable (.longNumber _))) => false
    | .load _ => true
    | .file e => e.isSystem
    | .format (.refused _) | .format .timedOut | .format (.unstartable _) => true
    | .format (.undecodable _) | .format (.unencodable _) => false

def title : Text := "schemagen"

def titleRecord : Record := ⟨.info, .command, "=== " ++ title ++ " ==="⟩

def failureRecord (e : Failure) : Record :=
  ⟨.error, .command, "Generation failed: " ++ e.message⟩

/-- The settings that a request comes to: flags go before what its source says. -/
def Request.settings (tree : FileTree) (r : Request) : Logged SettingsError Settings := do
  let s ← Settings.load tree r.config
  Logged.ofExcept ((s.override r.given).mapError .invalid)

def Request.generate (formatter : Formatter) (r : Request) : FileWork Failure Summary := do
  FileWork.tell [titleRecord]
  let s ← FileWork.mapError .settings fun tree ↦ (tree, r.settings tree)
  let g ← (Generation.run formatter s).mapError .generation
  return g.summary s

def settingsPath? (args : List Text) : Option Path :=
  match read args with
  | .ok (some r) => r.config.text?.map Path.ofText
  | _ => none

def paths (args : List Text) (tree : FileTree) : List Path :=
  match read args with
  | .ok (some r) => match (r.settings tree).result with
    | .ok s => [s.inputPath, s.outputPath] ++ s.dumpPath.toList ++ s.nodeLinkPath.toList
    | .error _ => []
  | _ => []

/-- What draws a summary, or has a reason why it cannot. What a drawing looks like is left open. -/
abbrev Console := Summary → Except Text Unit

def plainConsole : Console := fun _ ↦ .ok ()

inductive Outcome
  | help
  | misuse (e : UsageError)
  | summary (s : Summary)
  /-- All is written, but the console has not drawn the summary. -/
  | undrawn (reason : Text)
  | failure (e : Failure)

/-- The status with which the program ends, unless a failure escapes it. -/
def Outcome.status? : Outcome → Option Nat
  | help => some 0
  | misuse _ => some 2
  | summary _ => some 0
  | undrawn _ => none
  | failure e => if e.isReported then some 1 else none

structure Ended where
  tree : FileTree
  log : Log
  outcome : Outcome

def Request.level (r : Request) : Level := if r.verbose then .debug else .warning

/-- What becomes of a summary. A console that cannot draw it is no failure that is reported. -/
def Outcome.ofSummary (console : Console) (s : Summary) : Outcome :=
  match console s with
  | .ok () => .summary s
  | .error reason => .undrawn reason

def Request.run (formatter : Formatter) (console : Console) (r : Request) (tree : FileTree) : Ended :=
  let (tree, done) := r.generate formatter tree
  match done.result with
  | .ok s => ⟨tree, done.log.from r.level, .ofSummary console s⟩
  | .error e =>
    let reported := if e.isReported then [failureRecord e] else []
    ⟨tree, (done.log ++ reported).from r.level, .failure e⟩

def run (formatter : Formatter) (console : Console) (args : List Text) (tree : FileTree) : Ended :=
  match read args with
  | .error e => ⟨tree, [], .misuse e⟩
  | .ok none => ⟨tree, [], .help⟩
  | .ok (some r) => r.run formatter console tree

end CommandLine

end OntologyStructs
