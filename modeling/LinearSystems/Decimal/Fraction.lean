/-!
# Fractions and powers of ten

Non-negative fractions in exact arithmetic, as far as writing a number in decimal needs them:
comparison, rounding to a whole number, and the power of ten that leads a fraction. A fraction is
not reduced; its denominator is positive wherever one is built here from powers.
-/

namespace LinearSystems.Decimal

/-- The number `num / den`. -/
structure Fraction where
  num : Nat
  den : Nat

namespace Fraction

/-- The number `m * 2 ^ e`. -/
def binary (m : Nat) (e : Int) : Fraction where
  num := m * Nat.pow 2 e.toNat
  den := Nat.pow 2 (-e).toNat

/-- The number `c * 10 ^ g`. -/
def decimal (c : Nat) (g : Int) : Fraction where
  num := c * Nat.pow 10 g.toNat
  den := Nat.pow 10 (-g).toNat

/-- Whether one fraction is at most another. -/
def le (a b : Fraction) : Bool :=
  decide (a.num * b.den ≤ b.num * a.den)

/-- Whether one fraction is less than another. -/
def lt (a b : Fraction) : Bool :=
  decide (a.num * b.den < b.num * a.den)

/-- The fraction counted in units of `10 ^ g`. -/
def inUnits (a : Fraction) (g : Int) : Fraction where
  num := a.num * Nat.pow 10 (-g).toNat
  den := a.den * Nat.pow 10 g.toNat

/-- The whole part. -/
def floor (a : Fraction) : Nat :=
  a.num / a.den

/-- The nearest whole number; a half goes to the even neighbour. -/
def round (a : Fraction) : Nat :=
  let q := a.num / a.den
  let r := a.num % a.den
  if 2 * r < a.den then q
  else if a.den < 2 * r then q + 1
  else if q % 2 = 0 then q
  else q + 1

end Fraction

/-- How many digits a number has; zero has none. -/
def digitCount (n : Nat) : Nat :=
  if n = 0 then 0 else digitCount (n / 10) + 1
termination_by n

/-- The exponent `k` with `10 ^ k ≤ a < 10 ^ (k + 1)`, for a positive fraction. Below one it is read
    off the rounded-up reciprocal. -/
def Fraction.leadingExponent (a : Fraction) : Int :=
  if a.den ≤ a.num then
    (digitCount (a.num / a.den) : Int) - 1
  else
    -(digitCount ((a.den - 1) / a.num) : Int)

end LinearSystems.Decimal
