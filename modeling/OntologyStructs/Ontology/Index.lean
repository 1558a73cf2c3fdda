import OntologyStructs.Assoc
import OntologyStructs.Text

namespace OntologyStructs

/-- An identifier that comes again: at `position`, after the last time at `shadowed`. -/
structure Repeat where
  id : Text
  position : Nat
  shadowed : Nat
  deriving DecidableEq, Repr

/-- Where identifiers stand in a list: the last position of each, in the order in which they first
came. -/
structure Index where
  positions : Assoc Text Nat
  repeats : List Repeat
  deriving DecidableEq, Repr

namespace Index

def empty : Index := ⟨[], []⟩

def add (ix : Index) (position : Nat) (id : Text) : Index where
  positions := ix.positions.insert id position
  repeats := match ix.positions.get? id with
    | some shadowed => ix.repeats ++ [⟨id, position, shadowed⟩]
    | none => ix.repeats

def addAll (ix : Index) (i : Nat) : List Text → Index
  | [] => ix
  | id :: ids => (ix.add i id).addAll (i + 1) ids

def ofIds (ids : List Text) : Index := empty.addAll 0 ids

end Index

end OntologyStructs
