import OntologyStructs.Text.Printable

namespace OntologyStructs

namespace CodePoint

def shownWithin (quote c : CodePoint) : Text :=
  if c = quote ∨ c = '\\' then ['\\', c]
  else if c = '\n' then "\\n"
  else if c = '\r' then "\\r"
  else if c = '\t' then "\\t"
  else if c.isPrintable then [c]
  else if c.val < 0x100 then "\\x" ++ Text.hex 2 c.val
  else if c.val < 0x10000 then "\\u" ++ Text.hex 4 c.val
  else "\\U" ++ Text.hex 8 c.val

end CodePoint

namespace Text

/-- The quote that messages put around a text: double only if the text has single quotes and no
double ones. -/
def quoteFor (t : Text) : CodePoint :=
  if t.contains ('\'' : CodePoint) && !t.contains ('"' : CodePoint) then '"' else '\''

def quoted (t : Text) : Text :=
  let quote := t.quoteFor
  quote :: t.flatMap (CodePoint.shownWithin quote) ++ [quote]

end Text

end OntologyStructs
