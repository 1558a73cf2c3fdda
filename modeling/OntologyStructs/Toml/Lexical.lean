import OntologyStructs.Toml

namespace OntologyStructs.Toml

def isSpace (c : CodePoint) : Bool := c = ' ' || c = '\t'

def isSpaceOrLineFeed (c : CodePoint) : Bool := isSpace c || c = '\n'

def skipSpace (t : Text) : Text := t.dropWhile isSpace

/-- Control characters, the tab apart, stand nowhere but between lines. -/
def isIllegal (c : CodePoint) : Bool := c != 0x09 && (c.val < 0x20 || c.val == 0x7F)

/-- A carriage return before a line feed does not count. -/
def joinLineEnds : Text → Text
  | c :: d :: r => if c = '\r' ∧ d = '\n' then joinLineEnds (d :: r) else c :: joinLineEnds (d :: r)
  | t => t

def skipCommentTail (t : Text) : Reading Text :=
  let lineFeed : CodePoint := '\n'
  if (t.takeWhile (· != lineFeed)).any isIllegal then .error .malformed
  else .ok (t.dropWhile (· != lineFeed))

def skipComment (t : Text) : Reading Text :=
  match t with
  | c :: r => if c = '#' then skipCommentTail r else .ok t
  | [] => .ok t

def skipLines (inComment : Bool) : Text → Reading Text
  | [] => .ok []
  | c :: r =>
    if inComment then
      if c = '\n' then skipLines false r
      else if isIllegal c then .error .malformed
      else skipLines true r
    else if isSpaceOrLineFeed c then skipLines false r
    else if c = '#' then skipLines true r
    else .ok (c :: r)

inductive Within
  | plain
  /-- Behind a backslash. -/
  | escape
  /-- Before the last `left` hexadecimal digits of a code point. -/
  | unicode (left value : Nat)
  /-- Behind a backslash and space, where the line must end. -/
  | lineEnd
  /-- Between a line that a backslash ended and the next code point that is no space. -/
  | blank

inductive Next
  | go (state : Within) (read : Text)
  | done (read rest : Text)
  | fail

def plainStep (multiline : Bool) (read : Text) (c : CodePoint) (r : Text) : Next :=
  if c = '"' then
    if !multiline then .done read r
    else match r.afterPrefix? "\"\"" with
      | some rest => .done read rest
      | none => .go .plain (c :: read)
  else if c = '\\' then .go .escape read
  else if isIllegal c && !(multiline && c = '\n') then .fail
  else .go .plain (c :: read)

def shortEscape? (c : CodePoint) : Option CodePoint :=
  if c = 'b' then some 0x08
  else if c = 't' then some 0x09
  else if c = 'n' then some 0x0A
  else if c = 'f' then some 0x0C
  else if c = 'r' then some 0x0D
  else if c = '"' ∨ c = '\\' then some c
  else none

def escapeStep (multiline : Bool) (read : Text) (c : CodePoint) : Next :=
  if multiline && isSpace c then .go .lineEnd read
  else if multiline && c = '\n' then .go .blank read
  else if c = 'u' then .go (.unicode 4 0) read
  else if c = 'U' then .go (.unicode 8 0) read
  else match shortEscape? c with
    | some c => .go .plain (c :: read)
    | none => .fail

def unicodeStep (left value : Nat) (read : Text) (c : CodePoint) : Next :=
  match c.hexValue? with
  | none => .fail
  | some d =>
    let value := 16 * value + d
    if 1 < left then .go (.unicode (left - 1) value) read
    else if h : value < 0x110000 then
      let c : CodePoint := ⟨value, h⟩
      if c.isSurrogate then .fail else .go .plain (c :: read)
    else .fail

def step (multiline : Bool) (state : Within) (read : Text) (c : CodePoint) (r : Text) : Next :=
  match state with
  | .plain => plainStep multiline read c r
  | .escape => escapeStep multiline read c
  | .unicode left value => unicodeStep left value read c
  | .lineEnd =>
    if isSpace c then .go .lineEnd read else if c = '\n' then .go .blank read else .fail
  | .blank => if isSpaceOrLineFeed c then .go .blank read else plainStep multiline read c r

def stringTail (multiline : Bool) (state : Within) (read : Text) : Text → Reading (Text × Text)
  | [] => .error .malformed
  | c :: r => match step multiline state read c r with
    | .go state read => stringTail multiline state read r
    | .done read rest => .ok (read.reverse, rest)
    | .fail => .error .malformed

def literalTail (multiline : Bool) (read : Text) : Text → Reading (Text × Text)
  | [] => .error .malformed
  | c :: r =>
    let closing : Text := if multiline then "'''" else "'"
    match Text.afterPrefix? (c :: r) closing with
    | some rest => .ok (read.reverse, rest)
    | none =>
      if isIllegal c && !(multiline && c = '\n') then .error .malformed
      else literalTail multiline (c :: read) r

/-- Up to two quotes more at the end of a string over several lines belong to it. -/
def withFinalQuotes (quote : CodePoint) (t rest : Text) : Text × Text :=
  match rest with
  | a :: b :: r =>
    if a = quote ∧ b = quote then (t ++ [quote, quote], r)
    else if a = quote then (t ++ [quote], b :: r)
    else (t, rest)
  | [a] => if a = quote then (t ++ [quote], []) else (t, rest)
  | [] => (t, rest)

/-- A line feed behind the opening quotes does not count. -/
def dropLineFeed (t : Text) : Text := (t.afterPrefix? "\n").getD t

def string? (t : Text) : Option (Reading (Text × Text)) :=
  if let some r := t.afterPrefix? "\"\"\"" then
    some ((stringTail true .plain [] (dropLineFeed r)).map fun (s, r) ↦ withFinalQuotes '"' s r)
  else if let some r := t.afterPrefix? "\"" then some (stringTail false .plain [] r)
  else if let some r := t.afterPrefix? "'''" then
    some ((literalTail true [] (dropLineFeed r)).map fun (s, r) ↦ withFinalQuotes '\'' s r)
  else if let some r := t.afterPrefix? "'" then some (literalTail false [] r)
  else none

def isBareKey (c : CodePoint) : Bool := c.isAlphanumeric || c = '-' || c = '_'

def keyPart (t : Text) : Reading (Text × Text) :=
  match t with
  | [] => .error .malformed
  | c :: r =>
    if isBareKey c then .ok (t.span isBareKey)
    else if c = '\'' then literalTail false [] r
    else if c = '"' then stringTail false .plain [] r
    else .error .malformed

def key : Nat → Text → Reading (Key × Text)
  | 0, _ => .error .malformed
  | fuel + 1, t => do
    let (part, r) ← keyPart t
    match skipSpace r with
    | c :: r =>
      if c = '.' then
        let (parts, r) ← key fuel (skipSpace r)
        return (part :: parts, r)
      else return ([part], c :: r)
    | [] => return ([part], [])

end OntologyStructs.Toml
