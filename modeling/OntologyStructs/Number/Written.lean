import OntologyStructs.Number.Shortest
import OntologyStructs.Text

namespace OntologyStructs

structure NumberStyle where
  nan : Text
  infinity : Text
  /-- The greatest number of digits before the point, and of zeros behind it, that are written out. -/
  leadingDigits : Int
  leadingZeros : Int
  /-- The least number of digits of an exponent. -/
  exponentDigits : Nat

namespace NumberStyle

/-- Documents spell out the numbers that are none. -/
def document : NumberStyle := ⟨"NaN", "Infinity", 16, 3, 2⟩

def message : NumberStyle := { document with nan := "nan", infinity := "inf" }

/-- A value with its digits, the first of them standing for `10 ^ (point - 1)`. A whole number keeps
a zero behind the point. -/
def layOut (style : NumberStyle) (digits : Text) (point : Int) : Text :=
  if -style.leadingZeros ≤ point ∧ point ≤ 0 then
    "0." ++ List.replicate (-point).toNat ('0' : CodePoint) ++ digits
  else if 0 < point ∧ point ≤ style.leadingDigits then
    let n := point.toNat
    let whole := digits.take n ++ List.replicate (n - digits.length) ('0' : CodePoint)
    let rest := digits.drop n
    whole ++ "." ++ (if rest.isEmpty then ("0" : Text) else rest)
  else
    let fraction : Text := if digits.length = 1 then "" else "." ++ digits.drop 1
    let e := point - 1
    let exponent := Text.ofNat e.natAbs
    digits.take 1 ++ fraction ++ "e" ++ (if e < 0 then ("-" : Text) else "+")
      ++ List.replicate (style.exponentDigits - exponent.length) ('0' : CodePoint) ++ exponent

def sign (negative : Bool) : Text := if negative then "-" else ""

def write (style : NumberStyle) : Binary64 → Text
  | .nan => style.nan
  | .infinity negative => sign negative ++ style.infinity
  | .finite negative 0 _ => sign negative ++ "0.0"
  | .finite negative m e =>
    let d := Binary64.shortest m e
    let digits := Text.ofNat d.digits
    let kept : Text := (digits.reverse.dropWhile fun (c : CodePoint) ↦ c = '0').reverse
    sign negative ++ style.layOut kept (digits.length + d.scale)

end NumberStyle

end OntologyStructs
