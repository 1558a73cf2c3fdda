import OntologyStructs.Assoc
import OntologyStructs.Number.Binary64
import OntologyStructs.Text

namespace OntologyStructs

/-- A TOML value. Of dates and times only that they are there is kept. -/
inductive Toml
  | bool (b : Bool)
  | int (n : Int)
  | float (x : Binary64)
  | text (t : Text)
  | moment
  | list (items : List Toml)
  | table (members : List (Text × Toml))

namespace Toml

abbrev Table := Assoc Text Toml

abbrev Key := List Text

inductive ReadError
  | malformed
  | longNumber (digits : Nat)
  deriving DecidableEq, Repr

abbrev Reading (α : Type) := Except ReadError α

def isContainer : Toml → Bool
  | list _ | table _ => true
  | _ => false

/-- Changes the table behind a key, making tables on the way. With `enterLists`, a list on the way
stands for its last table. -/
def Table.change (enterLists : Bool) (f : Table → Option Table) : Key → Table → Option Table
  | [], m => f m
  | k :: ks, m => match m.get? k with
    | none => (change enterLists f ks []).map fun inner ↦ m.insert k (.table inner)
    | some (.table inner) =>
      (change enterLists f ks inner).map fun inner ↦ m.insert k (.table inner)
    | some (.list items) =>
      if !enterLists then none
      else match items.getLast? with
        | some (.table inner) =>
          (change enterLists f ks inner).map fun inner ↦
            m.insert k (.list (items.dropLast ++ [.table inner]))
        | _ => none
    | some _ => none

def Table.addNew (k : Text) (v : Toml) (m : Table) : Option Table :=
  if m.contains k then none else some (m.insert k v)

def Table.addItem (k : Text) (m : Table) : Option Table :=
  match m.get? k with
  | none => some (m.insert k (.list [.table []]))
  | some (.list items) => some (m.insert k (.list (items ++ [.table []])))
  | some _ => none

end Toml

end OntologyStructs
