import OntologyStructs.Files.Tree
import OntologyStructs.Log

namespace OntologyStructs

/-- Work on files, which reports and may fail. What it has done to files by then stays done. -/
def FileWork (ε α : Type) := FileTree → FileTree × Logged ε α

namespace FileWork

variable {ε δ α β : Type}

def run (w : FileWork ε α) (t : FileTree) : FileTree × Logged ε α := w t

def ofLogged (x : Logged ε α) : FileWork ε α := fun t ↦ (t, x)

def bind (w : FileWork ε α) (f : α → FileWork ε β) : FileWork ε β := fun t ↦
  let (t, x) := w t
  match x.result with
  | .error e => (t, ⟨x.log, .error e⟩)
  | .ok a =>
    let (t, y) := f a t
    (t, ⟨x.log ++ y.log, y.result⟩)

instance : Monad (FileWork ε) where
  pure a := ofLogged (pure a)
  bind := bind

def tell (log : Log) : FileWork ε Unit := ofLogged (Logged.tell log)

def mapError (f : ε → δ) (w : FileWork ε α) : FileWork δ α := fun t ↦
  let (t, x) := w t
  (t, x.mapError f)

def read (p : Path) : FileWork FileError Bytes := fun t ↦ (t, Logged.ofExcept (t.read p))

def save (p : Path) (pieces : List Text) : FileWork FileError Unit := fun t ↦
  match t.makeAll p.parent with
  | (t, .error e) => (t, Logged.ofExcept (.error e))
  | (t, .ok ()) =>
    let (t, x) := t.write p pieces
    (t, Logged.ofExcept x)

end FileWork

end OntologyStructs
