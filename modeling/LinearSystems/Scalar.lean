/-!
# Scalars

The arithmetic that the solvers need, kept apart from the numbers they run on. One definition of a
solver then has two readings: on `Float` every operation rounds once, overflow gives an infinity
and an invalid operation gives a value that is not a number; on `Rat` every operation is exact.

An order test on a value that is not a number is false, so a value that is not below a threshold
need not be a number.
-/

namespace LinearSystems

/-- What a solver asks of its numbers: the four operations, a sign change, the magnitude, an order
    test, and a test for the results of invalid operations. -/
class Scalar (α : Type u) extends Add α, Sub α, Mul α, Div α, Neg α, Zero α, One α where
  /-- The magnitude of a number. -/
  abs : α → α
  /-- Whether the value is the result of an invalid operation. -/
  isNaN : α → Bool
  /-- Whether the first number is strictly smaller; never so if one of them is not a number. -/
  less : α → α → Bool

namespace Scalar

/-- Double precision, each operation rounded on its own to the nearest value, a half to even. -/
instance : Scalar Float where
  zero := 0.0
  one := 1.0
  abs := Float.abs
  isNaN := Float.isNaN
  less := fun a b => decide (a < b)

/-- Exact fractions. No operation is invalid; a quotient by zero is zero. -/
instance : Scalar Rat where
  zero := 0
  one := 1
  abs := fun q => if q < 0 then -q else q
  isNaN := fun _ => false
  less := fun a b => decide (a < b)

variable {α : Type u} [Scalar α]

/-- Whether a value is too small in magnitude to divide by. A value that is not a number is not
    below any threshold. -/
def isBelow (threshold v : α) : Bool :=
  less (abs v) threshold

/-- The larger of a running maximum and a new value; a value that is not a number, once seen,
    stays. -/
def larger (best v : α) : α :=
  if isNaN best then best
  else if isNaN v then v
  else if less best v then v
  else best

/-- Whether `v` takes the lead from `best` in a search for the first largest value, where a value
    that is not a number outranks all numbers and yields to nothing. -/
def outranks (v best : α) : Bool :=
  !isNaN best && (isNaN v || less best v)

end Scalar

end LinearSystems
