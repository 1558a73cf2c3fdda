namespace OntologyStructs

/-- The whole number nearest to `n / d`; a half goes to the even neighbour. -/
def roundHalfEven (n d : Nat) : Nat :=
  let q := n / d
  let r := 2 * (n % d)
  if r < d then q
  else if d < r then q + 1
  else if q % 2 = 0 then q else q + 1

def decimalWidth (n : Nat) : Nat := (Nat.toDigits 10 n).length

end OntologyStructs
