import OntologyStructs.Json
import OntologyStructs.Number.Written
import OntologyStructs.Text.Quoted

namespace OntologyStructs

namespace CodePoint

def shortForm? (c : CodePoint) : Option Text :=
  if c = '"' then some "\\\""
  else if c = '\\' then some "\\\\"
  else if c = '\n' then some "\\n"
  else if c = '\r' then some "\\r"
  else if c = '\t' then some "\\t"
  else if c = 0x08 then some "\\b"
  else if c = 0x0C then some "\\f"
  else none

def units16 (c : CodePoint) : List Nat :=
  if c.val < 0x10000 then [c.val]
  else [0xD800 + (c.val - 0x10000) / 0x400, 0xDC00 + (c.val - 0x10000) % 0x400]

def unicodeEscape (unit : Nat) : Text := "\\u" ++ Text.hex 4 unit

def asAscii (c : CodePoint) : Text :=
  c.shortForm?.getD (if 0x20 ≤ c.val ∧ c.val < 0x7F then [c] else c.units16.flatMap unicodeEscape)

def asIs (c : CodePoint) : Text :=
  c.shortForm?.getD (if 0x20 ≤ c.val then [c] else unicodeEscape c.val)

end CodePoint

namespace Json

def asciiString (t : Text) : Text := "\"" ++ t.flatMap CodePoint.asAscii ++ "\""

def plainString (t : Text) : Text := "\"" ++ t.flatMap CodePoint.asIs ++ "\""

def boolWord (b : Bool) : Text := if b then "true" else "false"

mutual

def compact : Json → Text
  | null => "null"
  | bool b => boolWord b
  | int n => Text.ofInt n
  | float x => NumberStyle.document.write x
  | text t => asciiString t
  | list items => "[" ++ compactItems items ++ "]"
  | object members => "\x7b" ++ compactMembers members ++ "\x7d"

def compactItems : List Json → Text
  | [] => []
  | [v] => compact v
  | v :: vs => compact v ++ ", " ++ compactItems vs

def compactMembers : List (Text × Json) → Text
  | [] => []
  | [(k, v)] => asciiString k ++ ": " ++ compact v
  | (k, v) :: ms => asciiString k ++ ": " ++ compact v ++ ", " ++ compactMembers ms

end

def newLine (indent : Text) (depth : Nat) : Text := '\n' :: (List.replicate depth indent).flatten

mutual

/-- Over several lines, in the pieces in which a file gets them. -/
def pieces (indent : Text) (depth : Nat) : Json → List Text
  | null => ["null"]
  | bool b => [boolWord b]
  | int n => [Text.ofInt n]
  | float x => [NumberStyle.document.write x]
  | text t => [plainString t]
  | list [] => ["[]"]
  | list (v :: vs) =>
    itemPieces indent (depth + 1) "[" (v :: vs) ++ [newLine indent depth, "]"]
  | object [] => ["\x7b\x7d"]
  | object (m :: ms) =>
    [("\x7b" : Text), newLine indent (depth + 1)] ++ memberPieces indent (depth + 1) (m :: ms)
      ++ [newLine indent depth, "\x7d"]

/-- What comes before an item and a plain item are one piece. -/
def itemPieces (indent : Text) (depth : Nat) (before : Text) : List Json → List Text
  | [] => []
  | v :: vs =>
    (match v with
      | list items => (before ++ newLine indent depth) :: pieces indent depth (list items)
      | object members => (before ++ newLine indent depth) :: pieces indent depth (object members)
      | v => [before ++ newLine indent depth ++ (pieces indent depth v).flatten])
    ++ itemPieces indent depth "," vs

def memberPieces (indent : Text) (depth : Nat) : List (Text × Json) → List Text
  | [] => []
  | [(k, v)] => [plainString k, ": "] ++ pieces indent depth v
  | (k, v) :: ms =>
    [plainString k, ": "] ++ pieces indent depth v ++ ["," ++ newLine indent depth]
      ++ memberPieces indent depth ms

end

def indented (indent : Text) (v : Json) : Text := (v.pieces indent 0).flatten

mutual

def shown : Json → Text
  | null => "None"
  | bool b => if b then "True" else "False"
  | int n => Text.ofInt n
  | float x => NumberStyle.message.write x
  | text t => t.quoted
  | list items => "[" ++ shownItems items ++ "]"
  | object members => "\x7b" ++ shownMembers members ++ "\x7d"

def shownItems : List Json → Text
  | [] => []
  | [v] => shown v
  | v :: vs => shown v ++ ", " ++ shownItems vs

def shownMembers : List (Text × Json) → Text
  | [] => []
  | [(k, v)] => k.quoted ++ ": " ++ shown v
  | (k, v) :: ms => k.quoted ++ ": " ++ shown v ++ ", " ++ shownMembers ms

end

end Json

end OntologyStructs
