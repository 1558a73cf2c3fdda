import OntologyStructs.Value.Misshapen

namespace OntologyStructs

inductive Selector
  | member (name : Text)
  | item (index : Nat)
  deriving DecidableEq, Repr

def Selector.shown : Selector → Text
  | member name => name
  | item index => Text.ofNat index

inductive Model
  | document
  | node
  | settings
  deriving DecidableEq, Repr

def Model.name : Model → Text
  | document => "OntologyDocument"
  | node => "GraphNode"
  | settings => "GeneratorConfig"

inductive Complaint
  | missing
  | textExpected
  | listExpected
  | objectExpected
  | recordExpected (model : Model)
  | misshapen (m : Misshapen)
  | boolExpected
  | boolUnreadable
  | pathExpected
  | badPackageName (name : Text)
  | unknownMember

def Complaint.message : Complaint → Text
  | missing => "Field required"
  | textExpected => "Input should be a valid string"
  | listExpected => "Input should be a valid list"
  | objectExpected => "Input should be a valid dictionary"
  | recordExpected model => "Input should be a valid dictionary or instance of " ++ model.name
  | misshapen m => "Value error, " ++ m.message
  | boolExpected => "Input should be a valid boolean"
  | boolUnreadable => "Input should be a valid boolean, unable to interpret input"
  | pathExpected => "Input is not a valid path for <class 'pathlib.Path'>"
  | badPackageName name => "Value error, Invalid Go package name '" ++ name ++ "'"
  | unknownMember => "Extra inputs are not permitted"

structure Issue where
  place : List Selector
  complaint : Complaint

def Issue.below (s : Selector) (i : Issue) : Issue := { i with place := s :: i.place }

def Model.rejection (model : Model) (issues : List Issue) : Text :=
  Text.ofNat issues.length
    ++ (if issues.length = 1 then " validation error for " else " validation errors for ")
    ++ model.name

/-- A value, or all issues that stand against it. -/
abbrev Checked (α : Type) := Except (List Issue) α

namespace Checked

variable {α β : Type}

def issues : Checked α → List Issue
  | .ok _ => []
  | .error is => is

def below (s : Selector) (x : Checked α) : Checked α := x.mapError (·.map (Issue.below s))

protected def pure (a : α) : Checked α := .ok a

def apply (f : Checked (α → β)) (x : Checked α) : Checked β :=
  match f, x with
  | .ok f, .ok a => .ok (f a)
  | f, x => .error (f.issues ++ x.issues)

def before (x : Checked α) (y : Checked β) : Checked α :=
  match x, y with
  | .ok a, .ok _ => .ok a
  | x, y => .error (x.issues ++ y.issues)

def reject (c : Complaint) : Checked α := .error [⟨[], c⟩]

end Checked

end OntologyStructs
