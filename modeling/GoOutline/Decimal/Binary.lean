/-!
# Doubles as exact fractions

A finite double is an integer times a power of two. Decimal texts of doubles are worked out in
exact arithmetic on this form.

## Main definitions

* `Binary`: a finite magnitude `mantissa * 2 ^ exponent`
* `Binary.ofFloat?`: the magnitude of a finite double
* `Binary.fraction`: the magnitude as numerator and denominator
-/

namespace GoOutline.Decimal

/-- The magnitude `mantissa * 2 ^ exponent` of a double. -/
structure Binary where
  mantissa : Nat
  exponent : Int
  /-- The gap to the next smaller double is half the gap to the next larger one. -/
  isBoundary : Bool
  deriving DecidableEq, Repr, Inhabited

namespace Binary

/-- The magnitude of a double, when it is finite. -/
def ofFloat? (x : Float) : Option Binary :=
  let bits := x.toBits.toNat
  let biased : Nat := bits / Nat.pow 2 52 % Nat.pow 2 11
  let fraction : Nat := bits % Nat.pow 2 52
  if biased = 2047 then none
  else if biased = 0 then some ⟨fraction, -1074, false⟩
  else some ⟨Nat.pow 2 52 + fraction, (biased : Int) - 1075, fraction == 0 && biased > 1⟩

/-- The double has a minus sign. -/
def isNegative (x : Float) : Bool := x.toBits.toNat / Nat.pow 2 63 == 1

/-- `n * 2 ^ e` as a numerator and a denominator. -/
def scaled (n : Nat) (e : Int) : Nat × Nat :=
  if e < 0 then (n, Nat.pow 2 e.natAbs) else (n * Nat.pow 2 e.natAbs, 1)

/-- The magnitude as a numerator and a denominator. -/
def fraction (b : Binary) : Nat × Nat := scaled b.mantissa b.exponent

end Binary

end GoOutline.Decimal
