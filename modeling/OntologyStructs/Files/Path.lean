import OntologyStructs.Text

namespace OntologyStructs

/-- What a path begins with. Two slashes are kept, three and more are one. -/
inductive PathRoot
  | none
  | slash
  | slashes
  deriving DecidableEq, Repr

def PathRoot.toText : PathRoot → Text
  | .none => ""
  | .slash => "/"
  | .slashes => "//"

/-- A path without empty parts and without parts that are a single point. -/
structure Path where
  root : PathRoot
  parts : List Text
  deriving DecidableEq, Repr

namespace Path

def rootOf (t : Text) : PathRoot :=
  match (t.takeWhile (· == CodePoint.ofChar '/')).length with
  | 0 => .none
  | 2 => .slashes
  | _ => .slash

def ofText (t : Text) : Path where
  root := rootOf t
  parts := (t.splitOn '/').filter fun part ↦ part ≠ [] ∧ part ≠ "."

def toText (p : Path) : Text :=
  if p.root = .none ∧ p.parts = [] then "." else p.root.toText ++ Text.join "/" p.parts

def parent (p : Path) : Path := { p with parts := p.parts.dropLast }

/-- The last part from its last point on, unless that point begins or ends it. -/
def suffix (p : Path) : Text :=
  let name := p.parts.getLast?.getD []
  let point : CodePoint := '.'
  let extension := (name.reverse.takeWhile (· != point)).reverse
  if extension = [] ∨ name.length ≤ extension.length + 1 then [] else point :: extension

end Path

end OntologyStructs
