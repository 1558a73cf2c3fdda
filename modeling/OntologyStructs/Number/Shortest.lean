import OntologyStructs.Number.Binary64

namespace OntologyStructs

structure DecimalNumber where
  digits : Nat
  scale : Int
  deriving DecidableEq, Repr

namespace Binary64

/-- The distances from `m · 2 ^ e` to the lower and the upper end of the interval of numbers that
round to it, in units of `2 ^ (e - 2)`. Below a power of two the neighbour stands closer. -/
def reach (m : Nat) (e : Int) : Nat × Nat :=
  if m = leadingBit ∧ -1074 < e then (1, 2) else (2, 2)

/-- Whether `c · 10 ^ k` rounds to `m · 2 ^ e`; the ends belong to the interval when `m` is even. -/
def readsBack (m : Nat) (e : Int) (c : Nat) (k : Int) : Bool :=
  let (below, above) := reach m e
  let candidate := c * Nat.pow 10 k.toNat * Nat.pow 2 (2 - e).toNat
  let unit := Nat.pow 10 (-k).toNat * Nat.pow 2 (e - 2).toNat
  let low := (4 * m - below) * unit
  let high := (4 * m + above) * unit
  if m % 2 = 0 then low ≤ candidate && candidate ≤ high else low < candidate && candidate < high

/-- The number of digits before the point of `m · 2 ^ e`; negative when zeros follow the point. -/
def pointPosition (m : Nat) (e : Int) : Int :=
  decimalWidth (m * Nat.pow 2 e.toNat * Nat.pow 10 400 / Nat.pow 2 (-e).toNat) - 400

/-- The better of the two neighbours of `m · 2 ^ e` on the grid of multiples of `10 ^ k` that read
back. -/
def onGrid (m : Nat) (e : Int) (k : Int) : Option Nat :=
  let n := m * Nat.pow 2 e.toNat * Nat.pow 10 (-k).toNat
  let d := Nat.pow 2 (-e).toNat * Nat.pow 10 k.toNat
  let c := n / d
  match readsBack m e c k, readsBack m e (c + 1) k with
  | false, false => none
  | true, false => some c
  | false, true => some (c + 1)
  | true, true => some (roundHalfEven n d)

/-- The shortest decimal that reads back as `m · 2 ^ e`, and the nearest of those. Seventeen digits
always do. -/
def shortest (m : Nat) (e : Int) : DecimalNumber :=
  let point := pointPosition m e
  let found := (List.range 17).findSome? fun (n : Nat) ↦
    (onGrid m e (point - (n + 1))).map fun c ↦ DecimalNumber.mk c (point - (n + 1))
  found.getD ⟨m * Nat.pow 2 e.toNat, 0⟩

end Binary64

end OntologyStructs
