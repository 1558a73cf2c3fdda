import OntologyStructs.Text.Cased

namespace OntologyStructs

namespace Text

/-- The longest stretches of code points that pass the test. -/
def stretches (keep : CodePoint → Bool) : Text → List Text
  | [] => []
  | [c] => if keep c then [[c]] else []
  | c :: d :: r =>
    if !keep c then stretches keep (d :: r)
    else if keep d then addToFirst c (stretches keep (d :: r))
    else [c] :: stretches keep (d :: r)

end Text

namespace Naming

/-- Whether a word ends between `c` and `d`: a capital begins a word behind a small letter or digit,
and the last of several capitals does if a small letter follows it. -/
def endsBetween (c d : CodePoint) (next : Option CodePoint) : Bool :=
  d.isUpper && (c.isLower || c.isDigit || (c.isUpper && next.any CodePoint.isLower))

def caseWords : Text → List Text
  | [] => []
  | [c] => [[c]]
  | c :: d :: r =>
    if endsBetween c d r.head? then [c] :: caseWords (d :: r)
    else Text.addToFirst c (caseWords (d :: r))

/-- The words of a text: stretches of ASCII letters and digits, cut where the case says so. -/
def words (t : Text) : List Text := (t.stretches CodePoint.isAlphanumeric).flatMap caseWords

def capitalize : Text → Text
  | [] => []
  | c :: r => c.upper :: Text.lower r

def pascal (t : Text) : Text := (words t).flatMap capitalize

def vocabulary : Text := "schema"

def propertyMark : Text := "Prop"

/-- What follows the last slash, slashes at the end apart. -/
def lastSegment (id : Text) : Text :=
  let slash : CodePoint := '/'
  ((id.reverse.dropWhile (· == slash)).takeWhile (· != slash)).reverse

/-- Whether lower-casing keeps the first code point. Then the part names a property; an empty part and
one that begins with a digit count as such. -/
def isPropertyPart (part : Text) : Bool := !(part.head?.any CodePoint.changesInLower)

def partName (keepVocabulary : Bool) (part : Text) : Text :=
  if part = vocabulary then (if keepVocabulary then pascal part else [])
  else if isPropertyPart part then propertyMark ++ pascal part
  else pascal part

def typeName (keepVocabulary : Bool) (id : Text) : Text :=
  ((lastSegment id).splitOn ':').flatMap (partName keepVocabulary)

end Naming

end OntologyStructs
