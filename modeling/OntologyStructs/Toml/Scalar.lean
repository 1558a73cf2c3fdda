import OntologyStructs.Toml.Lexical

namespace OntologyStructs.Toml

def fixedDigits (n : Nat) (t : Text) : Option (Nat × Text) :=
  let ds := t.take n
  if ds.length = n && ds.all CodePoint.isDigit then some (Text.decimalValue ds, t.drop n) else none

def twoDigits (low high : Nat) (t : Text) : Option (Nat × Text) := do
  let (n, r) ← fixedDigits 2 t
  if low ≤ n ∧ n ≤ high then some (n, r) else none

def isLeapYear (year : Nat) : Bool := year % 4 = 0 && (year % 100 != 0 || year % 400 = 0)

def monthLength (year month : Nat) : Nat :=
  if month = 2 then (if isLeapYear year then 29 else 28)
  else if month = 4 ∨ month = 6 ∨ month = 9 ∨ month = 11 then 30
  else 31

def afterTime? (t : Text) : Option Text := do
  let (_, r) ← twoDigits 0 23 t
  let (_, r) ← twoDigits 0 59 (← r.afterPrefix? ":")
  let (_, r) ← twoDigits 0 59 (← r.afterPrefix? ":")
  match r.afterPrefix? "." with
  | none => some r
  | some fraction =>
    let (ds, rest) := fraction.span CodePoint.isDigit
    if ds = [] then some r else some rest

def afterOffset? (t : Text) : Option Text :=
  match t with
  | [] => none
  | c :: r =>
    if c = 'Z' ∨ c = 'z' then some r
    else if c = '+' ∨ c = '-' then do
      let (_, r) ← twoDigits 0 23 r
      let (_, r) ← twoDigits 0 59 (← r.afterPrefix? ":")
      some r
    else none

/-- A date, perhaps with a time and an offset. One that no calendar has is malformed. -/
def date? (t : Text) : Option (Reading (Toml × Text)) := do
  let (year, r) ← fixedDigits 4 t
  let (month, r) ← twoDigits 1 12 (← r.afterPrefix? "-")
  let (day, r) ← twoDigits 1 31 (← r.afterPrefix? "-")
  if year = 0 ∨ monthLength year month < day then some (.error .malformed)
  else
    let rest := match r with
      | c :: r' =>
        if c = 'T' ∨ c = 't' ∨ c = ' ' then
          match afterTime? r' with
          | some r' => (afterOffset? r').getD r'
          | none => r
        else r
      | [] => r
    some (.ok (.moment, rest))

/-- Digits that may have single underscores between them: those read, and the rest. -/
def groupedDigits (isDigit : CodePoint → Bool) : Text → Text × Text
  | [] => ([], [])
  | [c] => if isDigit c then ([c], []) else ([], [c])
  | c :: d :: r =>
    if !isDigit c then ([], c :: d :: r)
    else if d = '_' then
      match groupedDigits isDigit r with
      | ([], _) => ([c], d :: r)
      | (ds, rest) => (c :: ds, rest)
    else
      let (ds, rest) := groupedDigits isDigit (d :: r)
      (c :: ds, rest)

def valueIn (base : Nat) (ds : Text) : Nat :=
  ds.foldl (fun n c ↦ base * n + (c.hexValue?.getD 0)) 0

/-- A number in base 16, 2 or 8. -/
def prefixed? (t : Text) : Option (Toml × Text) :=
  let below (base : Nat) (c : CodePoint) : Bool := c.hexValue?.any fun v ↦ decide (v < base)
  let bases : List (Text × Nat) := [("0x", 16), ("0b", 2), ("0o", 8)]
  bases.findSome? fun (mark, base) ↦ do
    match groupedDigits (below base) (← t.afterPrefix? mark) with
    | ([], _) => none
    | (ds, rest) => some (.int (valueIn base ds), rest)

def splitSign (t : Text) : Bool × Text :=
  match t with
  | c :: r => if c = '-' then (true, r) else if c = '+' then (false, r) else (false, t)
  | [] => (false, t)

def wholeDigits (t : Text) : Text × Text :=
  match t with
  | c :: r => if c = '0' then ([c], r) else groupedDigits CodePoint.isDigit t
  | [] => ([], t)

def fraction (t : Text) : Option Text × Text :=
  match (t.afterPrefix? ".").map (groupedDigits CodePoint.isDigit) with
  | some (d :: ds, rest) => (some (d :: ds), rest)
  | _ => (none, t)

def exponent (t : Text) : Option Int × Text :=
  match t with
  | c :: r =>
    if c = 'e' ∨ c = 'E' then
      let (negative, r) := splitSign r
      match groupedDigits CodePoint.isDigit r with
      | ([], _) => (none, t)
      | (ds, rest) => (some (if negative then -(Text.decimalValue ds : Int) else Text.decimalValue ds), rest)
    else (none, t)
  | [] => (none, t)

def digitLimit : Nat := 4300

/-- A decimal number, if one comes next; a point or a power of ten makes it one with a fraction. -/
def decimal? (t : Text) : Option (Reading (Toml × Text)) :=
  let (negative, r) := splitSign t
  let (whole, r) := wholeDigits r
  if whole = [] then none
  else
    let (part, r) := fraction r
    let (power, r) := exponent r
    if part.isNone && power.isNone then
      if digitLimit < whole.length then some (.error (.longNumber whole.length))
      else some (.ok (.int (if negative then -(Text.decimalValue whole : Int) else Text.decimalValue whole), r))
    else
      let tenths := part.getD []
      some (.ok (.float (Binary64.ofDecimal negative (Text.decimalValue (whole ++ tenths))
        (power.getD 0 - tenths.length)), r))

def words : List (Text × Toml) :=
  [("true", .bool true), ("false", .bool false),
    ("inf", .float (.infinity false)), ("+inf", .float (.infinity false)),
    ("-inf", .float (.infinity true)), ("nan", .float .nan), ("+nan", .float .nan),
    ("-nan", .float .nan)]

def word? (t : Text) : Option (Toml × Text) :=
  words.findSome? fun (w, v) ↦ (t.afterPrefix? w).map fun r ↦ (v, r)

def scalar (t : Text) : Reading (Toml × Text) :=
  if let some found := string? t then found.map fun (s, r) ↦ (.text s, r)
  else if let some found := word? t then .ok found
  else if let some found := date? t then found
  else if let some r := afterTime? t then .ok (.moment, r)
  else if let some found := prefixed? t then .ok found
  else (decimal? t).getD (.error .malformed)

end OntologyStructs.Toml
