import OntologyStructs.Toml.Scalar

namespace OntologyStructs.Toml

structure Marks where
  /-- Tables that may not be opened again. -/
  opened : List Key
  /-- Tables that dotted keys have made; they may not be opened from the next header on. -/
  pending : List Key
  /-- Values that are complete, with all below them. -/
  closed : List Key

namespace Marks

def empty : Marks := ⟨[], [], []⟩

def isOpened (c : Marks) (k : Key) : Bool := c.opened.contains k

def isClosed (c : Marks) (k : Key) : Bool := c.closed.any fun start ↦ start.isPrefixOf k

def addOpened (c : Marks) (k : Key) : Marks := { c with opened := k :: c.opened }

def addClosed (c : Marks) (k : Key) : Marks := { c with closed := k :: c.closed }

def settle (c : Marks) : Marks := ⟨c.pending ++ c.opened, [], c.closed⟩

def forget (c : Marks) (k : Key) : Marks where
  opened := c.opened.filter fun other ↦ !k.isPrefixOf other
  pending := c.pending
  closed := c.closed.filter fun other ↦ !k.isPrefixOf other

end Marks

def orMalformed {α : Type} (x : Option α) : Reading α :=
  match x with
  | some a => .ok a
  | none => .error .malformed

def place (enterLists : Bool) (parent : Key) (last : Text) (v : Toml) (m : Table) : Reading Table :=
  orMalformed (Table.change enterLists (Table.addNew last v) parent m)

def lastPart (k : Key) : Text := k.getLast?.getD []

mutual

/-- Each reader lowers the fuel, and reads a code point at least every second time. -/
def value : Nat → Text → Reading (Toml × Text)
  | 0, _ => .error .malformed
  | fuel + 1, t =>
    if let some r := t.afterPrefix? "[" then do
      let r ← skipLines false r
      match r.afterPrefix? "]" with
      | some rest => return (.list [], rest)
      | none => items fuel [] r
    else if let some r := t.afterPrefix? "\x7b" then
      match (skipSpace r).afterPrefix? "\x7d" with
      | some rest => return (.table [], rest)
      | none => members fuel [] .empty (skipSpace r)
    else scalar t

def items : Nat → List Toml → Text → Reading (Toml × Text)
  | 0, _, _ => .error .malformed
  | fuel + 1, read, t => do
    let (v, r) ← value fuel t
    let r ← skipLines false r
    if let some rest := r.afterPrefix? "]" then return (.list (v :: read).reverse, rest)
    let r ← skipLines false (← orMalformed (r.afterPrefix? ","))
    match r.afterPrefix? "]" with
    | some rest => return (.list (v :: read).reverse, rest)
    | none => items fuel (v :: read) r

def members : Nat → Table → Marks → Text → Reading (Toml × Text)
  | 0, _, _, _ => .error .malformed
  | fuel + 1, read, marks, t => do
    let (k, r) ← key t.length t
    let r ← orMalformed (r.afterPrefix? "=")
    let (v, r) ← value fuel (skipSpace r)
    if marks.isClosed k then throw .malformed
    let read ← place false k.dropLast (lastPart k) v read
    let r := skipSpace r
    if let some rest := r.afterPrefix? "\x7d" then return (.table read, rest)
    let r ← orMalformed (r.afterPrefix? ",")
    members fuel read (if v.isContainer then marks.addClosed k else marks) (skipSpace r)

end

structure State where
  table : Table
  marks : Marks
  header : Key

/-- The proper starts of a key, shortest first, behind a header. -/
def dottedTables (header k : Key) : List Key :=
  (List.range (k.length - 1)).map fun i ↦ header ++ k.take (i + 1)

def State.assign (s : State) (k : Key) (v : Toml) : Reading State := do
  let parent := s.header ++ k.dropLast
  let tables := dottedTables s.header k
  if tables.any s.marks.isOpened || s.marks.isClosed parent then throw .malformed
  let table ← place true parent (lastPart k) v s.table
  let marks := { s.marks with pending := tables ++ s.marks.pending }
  return { s with
    table, marks := if v.isContainer then marks.addClosed (s.header ++ k) else marks }

def State.openTable (s : State) (k : Key) : Reading State := do
  let marks := s.marks.settle
  if marks.isOpened k || marks.isClosed k then throw .malformed
  let table ← orMalformed (Table.change true some k s.table)
  return ⟨table, marks.addOpened k, k⟩

def State.openItem (s : State) (k : Key) : Reading State := do
  let marks := s.marks.settle
  if marks.isClosed k then throw .malformed
  let table ← orMalformed (Table.change true (Table.addItem (lastPart k)) k.dropLast s.table)
  return ⟨table, (marks.forget k).addOpened k, k⟩

def statement (s : State) (t : Text) : Reading (State × Text) := do
  if let some r := t.afterPrefix? "[[" then
    let (k, r) ← key t.length (skipSpace r)
    let s ← s.openItem k
    return (s, ← orMalformed (r.afterPrefix? "]]"))
  else if let some r := t.afterPrefix? "[" then
    let (k, r) ← key t.length (skipSpace r)
    let s ← s.openTable k
    return (s, ← orMalformed (r.afterPrefix? "]"))
  else
    let (k, r) ← key t.length t
    let r ← orMalformed (r.afterPrefix? "=")
    let (v, r) ← value (2 * t.length + 2) (skipSpace r)
    return (← s.assign k v, r)

/-- One statement a line; lines may be empty or end in a comment. -/
def statements : Nat → State → Text → Reading Table
  | 0, _, _ => .error .malformed
  | fuel + 1, s, t =>
    match skipSpace t with
    | [] => .ok s.table
    | c :: r =>
      if c = '\n' then statements fuel s r
      else do
        let (s, r) ← if c = '#' then pure (s, c :: r) else statement s (c :: r)
        match ← skipComment (skipSpace r) with
        | [] => return s.table
        | c :: r => if c = '\n' then statements fuel s r else throw .malformed

def read (t : Text) : Reading Table :=
  let t := joinLineEnds t
  statements (t.length + 1) ⟨[], .empty, []⟩ t

end OntologyStructs.Toml
