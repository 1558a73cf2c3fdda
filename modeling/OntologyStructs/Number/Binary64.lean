import OntologyStructs.Number.Rounding

namespace OntologyStructs

/-- A binary number of 64 bits. A finite one is `significand · 2 ^ exponent`, where the significand
has 53 bits unless the exponent is the least one, `-1074`. -/
inductive Binary64
  | nan
  | infinity (negative : Bool)
  | finite (negative : Bool) (significand : Nat) (exponent : Int)
  deriving DecidableEq, Repr

namespace Binary64

def zero (negative : Bool) : Binary64 := .finite negative 0 (-1074)

def leadingBit : Nat := 0x10000000000000

def one : Binary64 := .finite false leadingBit (-52)

/-- `n / d · 2 ^ -e`, as a quotient. -/
def scaledDown (n d : Nat) (e : Int) : Nat × Nat := 
  (n * Nat.pow 2 (-e).toNat, d * Nat.pow 2 e.toNat)

def ofQuotient (negative : Bool) (n d : Nat) : Binary64 :=
  let least : Int := max (-1074) (n.log2 - d.log2 - 53)
  let low := scaledDown n d least
  let e := if low.1 / low.2 < 2 * leadingBit then least else least + 1
  let fit := scaledDown n d e
  let m := roundHalfEven fit.1 fit.2
  let (m, e) := if m = 2 * leadingBit then (leadingBit, e + 1) else (m, e)
  if 971 < e then .infinity negative else .finite negative m e

/-- The number nearest to `digits · 10 ^ scale`. Far beyond the ends of the range nothing needs to be
computed. -/
def ofDecimal (negative : Bool) (digits : Nat) (scale : Int) : Binary64 :=
  let size := decimalWidth digits + scale
  if digits = 0 ∨ size < -330 then zero negative
  else if 320 < size then .infinity negative
  else ofQuotient negative (digits * Nat.pow 10 scale.toNat) (Nat.pow 10 (-scale).toNat)

end Binary64

end OntologyStructs
