import LinearSystems.Decimal.Fraction

/-!
# Decimal digits of a number

Two choices of digits for a positive number: a given count of significant digits, rounded to
nearest with a half to even, and the fewest digits that read back as the same double.
-/

namespace LinearSystems.Decimal

/-- The number `d.ddd… * 10 ^ exponent`, where `digits` are the decimal digits of a whole number and
    stand for `d.ddd…`. -/
structure Digits where
  digits : Nat
  exponent : Int
  deriving DecidableEq, Repr

/-- The fraction with `count` significant digits. Rounding up to a power of ten moves the
    exponent. -/
def significant (count : Nat) (a : Fraction) : Digits :=
  let e := a.leadingExponent
  let n := (a.inUnits (e - count + 1)).round
  if n = Nat.pow 10 count then { digits := Nat.pow 10 (count - 1), exponent := e + 1 }
  else { digits := n, exponent := e }

/-- A positive double `m * 2 ^ e`, its significand full unless the exponent is the least one. -/
structure Double where
  significand : Nat
  exponent : Int

namespace Double

/-- The least exponent of a double. -/
def leastExponent : Int := -1074

/-- The value of the double. -/
def value (v : Double) : Fraction :=
  .binary v.significand v.exponent

/-- The upper end of the numbers that round to the double: half a unit above it. -/
def upper (v : Double) : Fraction :=
  .binary (4 * v.significand + 2) (v.exponent - 2)

/-- The lower end of the numbers that round to the double. Below a power of two the doubles lie
    twice as close, except at the least exponent. -/
def lower (v : Double) : Fraction :=
  if v.significand = Nat.pow 2 52 ∧ leastExponent < v.exponent then
    .binary (4 * v.significand - 1) (v.exponent - 2)
  else
    .binary (4 * v.significand - 2) (v.exponent - 2)

/-- Whether a number reads back as the double. The ends of the interval do if the significand is
    even. -/
def readsBack (v : Double) (a : Fraction) : Bool :=
  if v.significand % 2 = 0 then v.lower.le a && a.le v.upper
  else v.lower.lt a && a.lt v.upper

/-- The digits `c * 10 ^ g`, which are `count` digits, or one more than the largest such. -/
def ofGrid (count c : Nat) (e : Int) : Digits :=
  if c = Nat.pow 10 count then { digits := Nat.pow 10 (count - 1), exponent := e + 1 }
  else { digits := c, exponent := e }

/-- The nearest number of `count` digits that reads back as the double, if there is one. It is one
    of the two neighbours of the double on the grid of that many digits. -/
def onGrid? (v : Double) (count : Nat) : Option Digits :=
  let e := v.value.leadingExponent
  let g := e - count + 1
  let below := (v.value.inUnits g).floor
  let low := Fraction.decimal below g
  let high := Fraction.decimal (below + 1) g
  match v.readsBack low, v.readsBack high with
  | true, true =>
    some (ofGrid count ((v.value.inUnits g).round) e)
  | true, false => some (ofGrid count below e)
  | false, true => some (ofGrid count (below + 1) e)
  | false, false => none

/-- How many digits always suffice to tell doubles apart. -/
def enoughDigits : Nat := 17

/-- The fewest digits that read back as the double, and among those the nearest to it. -/
def shortest (v : Double) : Digits :=
  ((List.range' 1 enoughDigits).findSome? v.onGrid?).getD (significant enoughDigits v.value)

end Double

end LinearSystems.Decimal
