import OntologyStructs.Text

namespace OntologyStructs

namespace CodePoint

/-- Blank: the white space of Unicode and the four information separators. -/
def isBlank (c : CodePoint) : Bool :=
  let n := c.val
  (0x09 ≤ n && n ≤ 0x0D) || (0x1C ≤ n && n ≤ 0x20) || n == 0x85 || n == 0xA0 || n == 0x1680
    || (0x2000 ≤ n && n ≤ 0x200A) || n == 0x2028 || n == 0x2029 || n == 0x202F || n == 0x205F
    || n == 0x3000

/-- The code points that end a line of prose: line feed to carriage return, the separators of files,
groups and records, next line, and the separators of lines and paragraphs. -/
def endsLine (c : CodePoint) : Bool :=
  let n := c.val
  (0x0A ≤ n && n ≤ 0x0D) || (0x1C ≤ n && n ≤ 0x1E) || n == 0x85 || n == 0x2028 || n == 0x2029

end CodePoint

namespace Text

def trimLeft (t : Text) : Text := t.dropWhile CodePoint.isBlank

def trimRight (t : Text) : Text := (t.reverse.dropWhile CodePoint.isBlank).reverse

def trim (t : Text) : Text := t.trimLeft.trimRight

/-- The lines of prose. A carriage return with a line feed behind it ends one line; an end of line
at the very end opens no further one. -/
def lines : Text → List Text
  | [] => []
  | [c] => if c.endsLine then [[]] else [[c]]
  | c :: d :: r =>
    if c = '\r' ∧ d = '\n' then [] :: lines r
    else if c.endsLine then [] :: lines (d :: r)
    else addToFirst c (lines (d :: r))

/-- Every carriage return becomes a line feed, and one with a line feed behind it merges with it. -/
def unifyLineEnds : Text → Text
  | [] => []
  | [c] => if c = '\r' then ['\n'] else [c]
  | c :: d :: r =>
    if c = '\r' then '\n' :: (if d = '\n' then unifyLineEnds r else unifyLineEnds (d :: r))
    else c :: unifyLineEnds (d :: r)

def withoutFinalLineFeed (t : Text) : Text :=
  if t.getLast? = some ('\n' : CodePoint) then t.dropLast else t

end Text

end OntologyStructs
