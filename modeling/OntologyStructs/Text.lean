namespace OntologyStructs

/-- A code point. Surrogates are code points too: an escape in a document can name one that stands
alone, and it is kept. -/
abbrev CodePoint := Fin 0x110000

/-- There is a first code point, so that numerals denote code points. -/
instance CodePoint.neZero : @NeZero Nat Zero.ofOfNat0 0x110000 := ⟨Nat.succ_ne_zero 0x10FFFF⟩

abbrev Text := List CodePoint

namespace CodePoint

def ofChar (c : Char) : CodePoint :=
  ⟨c.toNat, by
    have h := c.valid
    simp only [UInt32.isValidChar, Nat.isValidChar] at h
    have : c.toNat = c.val.toNat := rfl
    omega⟩

instance : Coe Char CodePoint := ⟨ofChar⟩

def isHighSurrogate (c : CodePoint) : Bool := 0xD800 ≤ c.val && c.val < 0xDC00

def isLowSurrogate (c : CodePoint) : Bool := 0xDC00 ≤ c.val && c.val < 0xE000

def isSurrogate (c : CodePoint) : Bool := 0xD800 ≤ c.val && c.val < 0xE000

def isAscii (c : CodePoint) : Bool := c.val < 0x80

def isDigit (c : CodePoint) : Bool := '0' ≤ c && c ≤ '9'

def isUpper (c : CodePoint) : Bool := 'A' ≤ c && c ≤ 'Z'

def isLower (c : CodePoint) : Bool := 'a' ≤ c && c ≤ 'z'

def isLetter (c : CodePoint) : Bool := c.isUpper || c.isLower

def isAlphanumeric (c : CodePoint) : Bool := c.isLetter || c.isDigit

/-- Maps `A`–`Z` to `a`–`z` and keeps all else. -/
def lower (c : CodePoint) : CodePoint := if c.isUpper then c + 32 else c

/-- Maps `a`–`z` to `A`–`Z` and keeps all else. -/
def upper (c : CodePoint) : CodePoint := if c.isLower then c - 32 else c

def digitValue (c : CodePoint) : Nat := c.val - ofChar '0'

def hexValue? (c : CodePoint) : Option Nat :=
  if c.isDigit then some c.digitValue
  else if 'a' ≤ c.lower && c.lower ≤ 'f' then some (c.lower.val - ofChar 'a' + 10)
  else none

def hexDigit (n : Nat) : CodePoint :=
  if n % 16 < 10 then Fin.ofNat _ (ofChar '0' + n % 16) else Fin.ofNat _ (ofChar 'a' + n % 16 - 10)

def toChar? (c : CodePoint) : Option Char :=
  if h : c.val.isValidChar then some (Char.ofNatAux c.val h) else none

end CodePoint

namespace Text

def ofString (s : String) : Text := s.toList.map CodePoint.ofChar

instance : Coe String Text := ⟨ofString⟩

/-- A surrogate has no place in a `String` and becomes the replacement character. -/
def toString (t : Text) : String := String.ofList (t.map fun c ↦ c.toChar?.getD '\ufffd')

def ofNat (n : Nat) : Text := (Nat.toDigits 10 n).map CodePoint.ofChar

def ofInt : Int → Text
  | .ofNat n => ofNat n
  | .negSucc n => '-' :: ofNat (n + 1)

def hex : Nat → Nat → Text
  | 0, _ => []
  | width + 1, n => hex width (n / 16) ++ [CodePoint.hexDigit n]

def decimalValue (t : Text) : Nat := t.foldl (fun n c ↦ 10 * n + c.digitValue) 0

def lower (t : Text) : Text := t.map CodePoint.lower

def addToFirst (c : CodePoint) : List Text → List Text
  | [] => [[c]]
  | t :: ts => (c :: t) :: ts

/-- The pieces between the separators: one more than there are separators. -/
def splitOn (sep : CodePoint) : Text → List Text
  | [] => [[]]
  | c :: r => if c = sep then [] :: splitOn sep r else addToFirst c (splitOn sep r)

def join (sep : Text) : List Text → Text
  | [] => []
  | [t] => t
  | t :: ts => t ++ sep ++ join sep ts

def afterPrefix? : Text → Text → Option Text
  | t, [] => some t
  | [], _ :: _ => none
  | c :: t, d :: start => if c = d then afterPrefix? t start else none

def startsWith (t start : Text) : Bool := (t.afterPrefix? start).isSome

def padRight (width : Nat) (t : Text) : Text := t ++ List.replicate (width - t.length) (' ' : CodePoint)

def listLe {α : Type} [DecidableEq α] (le : α → α → Bool) : List α → List α → Bool
  | [], _ => true
  | _ :: _, [] => false
  | a :: as, b :: bs => if a = b then listLe le as bs else le a b

def le (a b : Text) : Bool := listLe (fun (c d : CodePoint) ↦ decide (c.val ≤ d.val)) a b

def sort (ts : List Text) : List Text := ts.mergeSort le

end Text

end OntologyStructs
