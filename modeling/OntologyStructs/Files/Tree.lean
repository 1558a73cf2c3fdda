import OntologyStructs.Assoc
import OntologyStructs.Encoding.Utf8
import OntologyStructs.Files.Path
import OntologyStructs.Text.Quoted

namespace OntologyStructs

inductive FileFault
  | notFound
  | exists
  | notDirectory
  | isDirectory
  | nameTooLong
  deriving DecidableEq, Repr

namespace FileFault

def number : FileFault → Nat
  | .notFound => 2
  | .exists => 17
  | .notDirectory => 20
  | .isDirectory => 21
  | .nameTooLong => 36

def reason : FileFault → Text
  | .notFound => "No such file or directory"
  | .exists => "File exists"
  | .notDirectory => "Not a directory"
  | .isDirectory => "Is a directory"
  | .nameTooLong => "File name too long"

end FileFault

inductive FileError
  | system (fault : FileFault) (path : Path)
  /-- The path holds a zero byte, which no name can. -/
  | zeroByte
  /-- A name or a content has no bytes in UTF-8. -/
  | unencodable (fault : EncodeFault)
  deriving DecidableEq, Repr

def FileError.isSystem : FileError → Bool
  | .system _ _ => true
  | .zeroByte | .unencodable _ => false

def FileError.message : FileError → Text
  | .system fault path =>
    "[Errno " ++ Text.ofNat fault.number ++ "] " ++ fault.reason ++ ": " ++ path.toText.quoted
  | .zeroByte => "embedded null byte"
  | .unencodable fault => fault.message

namespace Path

/-- A surrogate that stands for a byte of a name that is no UTF-8. -/
def standsForByte (c : CodePoint) : Bool := 0xDC80 ≤ c.val && c.val ≤ 0xDCFF

/-- The first run of surrogates that do not all stand for bytes, without those that do at its
front. -/
def nameFault (position : Nat) (t : Text) : Option EncodeFault :=
  match t with
  | [] => none
  | c :: r =>
    if c.isSurrogate && !standsForByte c then
      some ⟨c, position, ((c :: r).takeWhile CodePoint.isSurrogate).length⟩
    else nameFault (position + 1) r

def askable (p : Path) : Except FileError Unit :=
  match nameFault 0 p.toText with
  | some fault => .error (.unencodable fault)
  | none => if p.toText.contains 0 then .error .zeroByte else .ok ()

def nameBytes (t : Text) : Bytes :=
  t.flatMap fun c ↦ if standsForByte c then [(c.val - 0xDC00).toUInt8] else Utf8.encodeOne c

def nameSize (t : Text) : Nat := (nameBytes t).length

/-- The longest name, and the longest path, in bytes. -/
def nameLimit : Nat := 255

def pathLimit : Nat := 4095

end Path

abbrev Location := List Text

inductive Entry
  | file (content : Bytes)
  | directory
  deriving DecidableEq, Repr

/-- Files and directories, and the directory to which paths are relative. There are no links and no
permissions, and there is always room. -/
structure FileTree where
  entries : Assoc Location Entry
  home : Location

namespace FileTree

/-- What is at a location. The top of the tree is always there. -/
def at? (t : FileTree) : Location → Option Entry
  | [] => some .directory
  | l => t.entries.get? l

def put (t : FileTree) (l : Location) (e : Entry) : FileTree :=
  { t with entries := t.entries.insert l e }

/-- Goes down from a location by names; only the last may lead nowhere. -/
def walk (t : FileTree) (l : Location) : List Text → Except FileFault (Location × Option Entry)
  | [] => .ok (l, t.at? l)
  | name :: names =>
    if name = ".." then walk t l.dropLast names
    else if Path.nameLimit < Path.nameSize name then .error .nameTooLong
    else match t.at? (l ++ [name]), names with
      | none, [] => .ok (l ++ [name], none)
      | none, _ :: _ => .error .notFound
      | some (.file content), [] => .ok (l ++ [name], some (.file content))
      | some (.file _), _ :: _ => .error .notDirectory
      | some .directory, _ => walk t (l ++ [name]) names

def find (t : FileTree) (p : Path) : Except FileFault (Location × Option Entry) :=
  if Path.pathLimit < Path.nameSize p.toText then .error .nameTooLong
  else t.walk (if p.root = .none then t.home else []) p.parts

def locate (t : FileTree) (p : Path) : Except FileError (Location × Option Entry) := do
  p.askable
  (t.find p).mapError (.system · p)

/-- Whether there is a file. A path that leads nowhere or cannot be asked about has none, but a name
that is too long is an error. -/
def isFile (t : FileTree) (p : Path) : Except FileError Bool :=
  match t.locate p with
  | .ok (_, some (.file _)) => .ok true
  | .error (.system .nameTooLong path) => .error (.system .nameTooLong path)
  | _ => .ok false

def isDirectory (t : FileTree) (p : Path) : Bool :=
  match t.locate p with
  | .ok (_, some .directory) => true
  | _ => false

def read (t : FileTree) (p : Path) : Except FileError Bytes := do
  match ← t.locate p with
  | (_, some (.file content)) => return content
  | (_, some .directory) => throw (.system .isDirectory p)
  | (_, none) => throw (.system .notFound p)

def writable (t : FileTree) (p : Path) : Except FileError Location := do
  match ← t.locate p with
  | (_, some .directory) => throw (.system .isDirectory p)
  | (l, _) => return l

/-- The bytes of texts up to the first that has none, and what is wrong with that one. -/
def encodePieces : List Text → Bytes × Option EncodeFault
  | [] => ([], none)
  | t :: ts => match Utf8.encode t with
    | .error fault => ([], some fault)
    | .ok bytes =>
      let (rest, fault) := encodePieces ts
      (bytes ++ rest, fault)

/-- Writes a file piece by piece. A piece that has no bytes ends the writing, but what came before it
is written. -/
def write (t : FileTree) (p : Path) (pieces : List Text) : FileTree × Except FileError Unit :=
  match t.writable p with
  | .error e => (t, .error e)
  | .ok l =>
    let (content, fault) := encodePieces pieces
    (t.put l (.file content), match fault with
      | some fault => .error (.unencodable fault)
      | none => .ok ())

def makeNew (t : FileTree) (p : Path) : Except FileError FileTree := do
  match ← t.locate p with
  | (_, some _) => throw (.system .exists p)
  | (l, none) => return t.put l .directory

def makeOne (t : FileTree) (p : Path) : FileTree × Except FileError Unit :=
  match t.makeNew p with
  | .ok t => (t, .ok ())
  | .error (.system fault path) =>
    (t, if t.isDirectory p then .ok () else .error (.system fault path))
  | .error e => (t, .error e)

/-- Makes a directory and those above it, as far as they are not there. The parts of the path come in
reverse. -/
def makeAllAbove (t : FileTree) (root : PathRoot) : List Text → FileTree × Except FileError Unit
  | [] => t.makeOne ⟨root, []⟩
  | part :: above =>
    let p : Path := ⟨root, (part :: above).reverse⟩
    match t.makeNew p with
    | .error (.system .notFound _) => match makeAllAbove t root above with
      | (t, .ok ()) => t.makeOne p
      | failed => failed
    | _ => t.makeOne p

def makeAll (t : FileTree) (p : Path) : FileTree × Except FileError Unit :=
  t.makeAllAbove p.root p.parts.reverse

end FileTree

end OntologyStructs
