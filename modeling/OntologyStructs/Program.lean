import OntologyStructs.Encoding

namespace OntologyStructs

structure Ending where
  status : Nat := 0
  output : Bytes := []
  errors : Bytes := []
  deriving DecidableEq, Repr

/-- A program that reads all of its input before it ends. -/
inductive Program
  /-- The system cannot start it, and says why. -/
  | unstartable (reason : Text)
  /-- There is no ending on an input that the program takes too long over. -/
  | startable (ending? : Bytes → Option Ending)

end OntologyStructs
