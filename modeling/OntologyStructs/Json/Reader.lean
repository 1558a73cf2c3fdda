import OntologyStructs.Json

namespace OntologyStructs.Json

inductive Fault
  | valueExpected
  | nameExpected
  | colonExpected
  | commaExpected
  | extraData
  | unterminatedString
  | controlCharacter
  | badEscape
  | badUnicodeEscape
  | byteOrderMark
  deriving DecidableEq, Repr

def Fault.message : Fault → Text
  | .valueExpected => "Expecting value"
  | .nameExpected => "Expecting property name enclosed in double quotes"
  | .colonExpected => "Expecting ':' delimiter"
  | .commaExpected => "Expecting ',' delimiter"
  | .extraData => "Extra data"
  | .unterminatedString => "Unterminated string starting at"
  | .controlCharacter => "Invalid control character at"
  | .badEscape => "Invalid \\escape"
  | .badUnicodeEscape => "Invalid \\uXXXX escape"
  | .byteOrderMark => "Unexpected UTF-8 BOM (decode using utf-8-sig)"

/-- A place in a text: lines and columns count from one, the offset from zero. -/
structure Place where
  line : Nat
  column : Nat
  offset : Nat
  deriving DecidableEq, Repr

def Place.after (before : Text) : Place where
  line := before.count ('\n' : CodePoint) + 1
  column := (before.reverse.takeWhile fun (c : CodePoint) ↦ c ≠ '\n').length + 1
  offset := before.length

inductive ReadError
  | malformed (fault : Fault) (place : Place)
  /-- A whole number is written with more digits than are read. -/
  | longNumber (digits : Nat)
  deriving DecidableEq, Repr

def digitLimit : Nat := 4300

def ReadError.message : ReadError → Text
  | .malformed fault place =>
    fault.message ++ ": line " ++ Text.ofNat place.line ++ " column " ++ Text.ofNat place.column
      ++ " (char " ++ Text.ofNat place.offset ++ ")"
  | .longNumber digits =>
    "Exceeds the limit (" ++ Text.ofNat digitLimit ++ " digits) for integer string conversion: value has "
      ++ Text.ofNat digits
      ++ " digits; use sys.set_int_max_str_digits() to increase the limit"

/-- Why reading stopped; a fault lies where `rest` begins. -/
inductive Stop
  | fault (fault : Fault) (rest : Text)
  | longNumber (digits : Nat)

def isSpace (c : CodePoint) : Bool := c = ' ' || c = '\t' || c = '\n' || c = '\r'

def skipSpace (t : Text) : Text := t.dropWhile isSpace

inductive Within
  | plain
  /-- Behind a backslash, with the text from it on. -/
  | escape (backslash : Text)
  /-- Before the last `left` of four hexadecimal digits, with the text from the `u` on. -/
  | unicode (u : Text) (left value : Nat)

def shortEscape? (c : CodePoint) : Option CodePoint :=
  if c = '"' ∨ c = '\\' ∨ c = '/' then some c
  else if c = 'b' then some 0x08
  else if c = 'f' then some 0x0C
  else if c = 'n' then some 0x0A
  else if c = 'r' then some 0x0D
  else if c = 't' then some 0x09
  else none

/-- Puts an escaped code unit behind what was read. `high` says that the last one read was escaped
too and is the first half of a pair. -/
def addUnit (read : Text) (high : Bool) (unit : Nat) : Text × Bool :=
  let c : CodePoint := Fin.ofNat _ unit
  match read with
  | first :: before =>
    if high && c.isLowSurrogate then
      (Fin.ofNat _ (0x10000 + (first.val - 0xD800) * 0x400 + (unit - 0xDC00)) :: before, false)
    else (c :: read, c.isHighSurrogate)
  | [] => ([c], c.isHighSurrogate)

/-- Reads a string up to its closing quote. What was read is in reverse. -/
def stringTail (opening : Text) (state : Within) (read : Text) (high : Bool) : Text → Except Stop (Text × Text)
  | [] => match state with
    | .unicode u _ _ => .error (.fault .badUnicodeEscape u)
    | _ => .error (.fault .unterminatedString opening)
  | c :: r => match state with
    | .plain =>
      if c = '"' then .ok (read.reverse, r)
      else if c = '\\' then stringTail opening (.escape (c :: r)) read high r
      else if c.val < 0x20 then .error (.fault .controlCharacter (c :: r))
      else stringTail opening .plain (c :: read) false r
    | .escape backslash =>
      if c = 'u' then stringTail opening (.unicode (c :: r) 4 0) read high r
      else match shortEscape? c with
        | some c => stringTail opening .plain (c :: read) false r
        | none => .error (.fault .badEscape backslash)
    | .unicode u left value => match c.hexValue? with
      | none => .error (.fault .badUnicodeEscape u)
      | some d =>
        let value := 16 * value + d
        if 1 < left then stringTail opening (.unicode u (left - 1) value) read high r
        else if r.isEmpty then .error (.fault .badUnicodeEscape u)
        else
          let (read, high) := addUnit read high value
          stringTail opening .plain read high r

def digits (t : Text) : Text × Text := t.span CodePoint.isDigit

def fraction (t : Text) : Option Text × Text :=
  match t with
  | c :: r =>
    let (ds, rest) := digits r
    if c = '.' ∧ ds ≠ [] then (some ds, rest) else (none, t)
  | [] => (none, t)

def exponent (t : Text) : Option Int × Text :=
  match t with
  | c :: r =>
    if c = 'e' ∨ c = 'E' then
      let (negative, unsigned) := match r with
        | s :: r' => if s = '-' then (true, r') else if s = '+' then (false, r') else (false, r)
        | [] => (false, r)
      let (ds, rest) := digits unsigned
      if ds = [] then (none, t)
      else (some (if negative then -(Text.decimalValue ds : Int) else Text.decimalValue ds), rest)
    else (none, t)
  | [] => (none, t)

def wholeDigits (t : Text) : Text × Text :=
  match t with
  | c :: r => if c = '0' then ([c], r) else digits t
  | [] => ([], t)

/-- A number; `start` is the text from its first code point on, its sign included. -/
def number (start : Text) : Except Stop (Json × Text) :=
  let (negative, t) := match start with
    | c :: r => if c = '-' then (true, r) else (false, start)
    | [] => (false, start)
  let (whole, t) := wholeDigits t
  if whole = [] then .error (.fault .valueExpected start)
  else
    let (part, t) := fraction t
    let (power, t) := exponent t
    if part.isNone && power.isNone then
      if digitLimit < whole.length then .error (.longNumber whole.length)
      else
        let n : Int := Text.decimalValue whole
        .ok (.int (if negative then -n else n), t)
    else
      let tenths := part.getD []
      .ok (.float (Binary64.ofDecimal negative (Text.decimalValue (whole ++ tenths))
        (power.getD 0 - tenths.length)), t)

def words : List (Text × Json) :=
  [("null", .null), ("true", .bool true), ("false", .bool false), ("NaN", .float .nan),
    ("Infinity", .float (.infinity false)), ("-Infinity", .float (.infinity true))]

def word? (t : Text) : Option (Json × Text) :=
  words.findSome? fun (w, v) ↦ (t.afterPrefix? w).map fun r ↦ (v, r)

mutual

/-- Each reader lowers the fuel, and reads a code point at least every second time. Values may nest as
deep as they like. -/
def value : Nat → Text → Except Stop (Json × Text)
  | 0, t => .error (.fault .valueExpected t)
  | fuel + 1, t => match t with
    | [] => .error (.fault .valueExpected t)
    | c :: r =>
      if c = '"' then (stringTail t .plain [] false r).map fun (s, r) ↦ (.text s, r)
      else if c = '[' then
        match skipSpace r with
        | c :: r' => if c = ']' then .ok (.list [], r') else items fuel [] (c :: r')
        | [] => items fuel [] []
      else if c = '{' then
        match skipSpace r with
        | c :: r' => if c = '}' then .ok (.object [], r') else members fuel [] (c :: r')
        | [] => members fuel [] []
      else match word? t with
        | some found => .ok found
        | none => number t

/-- The items of a list up to its bracket; the ones read so far are in reverse. -/
def items : Nat → List Json → Text → Except Stop (Json × Text)
  | 0, _, t => .error (.fault .valueExpected t)
  | fuel + 1, read, t => do
    let (v, r) ← value fuel t
    match skipSpace r with
    | c :: r =>
      if c = ']' then return (.list (v :: read).reverse, r)
      else if c = ',' then items fuel (v :: read) (skipSpace r)
      else .error (.fault .commaExpected (c :: r))
    | [] => .error (.fault .commaExpected [])

def members : Nat → Assoc Text Json → Text → Except Stop (Json × Text)
  | 0, _, t => .error (.fault .nameExpected t)
  | fuel + 1, read, t => match t with
    | [] => .error (.fault .nameExpected [])
    | q :: r =>
      if q = '"' then do
        let (k, r) ← stringTail t .plain [] false r
        match skipSpace r with
        | [] => .error (.fault .colonExpected [])
        | c :: r =>
          if c = ':' then do
            let (v, r) ← value fuel (skipSpace r)
            match skipSpace r with
            | c :: r =>
              if c = '}' then return (.object (read.insert k v), r)
              else if c = ',' then members fuel (read.insert k v) (skipSpace r)
              else .error (.fault .commaExpected (c :: r))
            | [] => .error (.fault .commaExpected [])
          else .error (.fault .colonExpected (c :: r))
      else .error (.fault .nameExpected t)

end

def document (t : Text) : Except Stop Json := do
  let (v, r) ← value (2 * t.length + 2) (skipSpace t)
  match skipSpace r with
  | [] => return v
  | r => throw (.fault .extraData r)

/-- Reads a JSON text that was decoded from bytes. A member that comes again replaces the value of the
first. -/
def readDecoded (t : Text) : Except ReadError Json :=
  match document t with
  | .ok v => .ok v
  | .error (.fault fault rest) =>
    .error (.malformed fault (.after (t.take (t.length - rest.length))))
  | .error (.longNumber n) => .error (.longNumber n)

/-- Reads a JSON text. One that begins with a byte order mark should have been decoded as bytes. -/
def read (t : Text) : Except ReadError Json :=
  if t.head? = some 0xFEFF then .error (.malformed .byteOrderMark (.after [])) else readDecoded t

end OntologyStructs.Json
