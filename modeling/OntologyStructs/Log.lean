import OntologyStructs.Text

namespace OntologyStructs

inductive Level
  | debug
  | info
  | warning
  | error
  deriving DecidableEq, Repr

def Level.rank : Level → Nat
  | debug => 0
  | info => 1
  | warning => 2
  | error => 3

inductive Reporter
  | settings
  | document
  | ontology
  | resolution
  | structs
  | goFile
  | dumps
  | command
  deriving DecidableEq, Repr

def Reporter.name : Reporter → Text
  | settings => "schemagen.config.loader"
  | document => "schemagen.jsonld.loader"
  | ontology => "schemagen.graph.manager"
  | resolution => "schemagen.graph.resolver"
  | structs => "schemagen.codegen.declarations"
  | goFile => "schemagen.codegen.golang"
  | dumps => "schemagen.export.json"
  | command => "schemagen.cli.generate"

structure Record where
  level : Level
  reporter : Reporter
  message : Text
  deriving DecidableEq, Repr

abbrev Log := List Record

def Log.from (level : Level) (log : Log) : Log := log.filter fun r ↦ level.rank ≤ r.level.rank

/-- A computation with its log, which is there whether it fails or not. -/
structure Logged (ε α : Type) where
  log : Log
  result : Except ε α

namespace Logged

variable {ε δ α β : Type}

def tell (log : Log) : Logged ε Unit := ⟨log, .ok ()⟩

def ofExcept (x : Except ε α) : Logged ε α := ⟨[], x⟩

def bind (x : Logged ε α) (f : α → Logged ε β) : Logged ε β :=
  match x.result with
  | .error e => ⟨x.log, .error e⟩
  | .ok a => ⟨x.log ++ (f a).log, (f a).result⟩

instance : Monad (Logged ε) where
  pure a := ⟨[], .ok a⟩
  bind := bind

def mapError (f : ε → δ) (x : Logged ε α) : Logged δ α := ⟨x.log, x.result.mapError f⟩

end Logged

end OntologyStructs
