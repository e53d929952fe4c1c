import LinearSystems.Decimal.Print

/-!
# Numbers as they are given

A number comes either as a whole number of any size or as a double. The two kinds are compared by
their exact values, so no rounding decides an order, and a whole number beyond the doubles is still
a number.
-/

namespace LinearSystems

/-- A whole number of any size, or a double. -/
inductive Number where
  | whole (i : Int)
  | real (x : Float)

namespace Number

/-- The exact value of a double that is finite. -/
def exactValue? (x : Float) : Option Rat :=
  match x.toModel.unpack with
  | .notANumber => none
  | .infinity _ => none
  | .zero _ => some 0
  | .finite s m e _ =>
    let v := mkRat (m * Nat.pow 2 e.toNat : Nat) (Nat.pow 2 (-e).toNat)
    some (if s == .negative then -v else v)

/-- The place of a number on the extended line: the side of infinity it lies on, zero for a finite
    number, and then its value. Absent for a double that is not a number. -/
def place? : Number → Option (Int × Rat)
  | .whole i => some (0, i)
  | .real x =>
    if x.isNaN then none
    else
      match exactValue? x with
      | some q => some (0, q)
      | none => some (if x < 0.0 then -1 else 1, 0)

/-- Whether the first number is smaller than the second, by exact value. -/
def less (a b : Number) : Bool :=
  match a.place?, b.place? with
  | some (s, p), some (t, q) => s < t || (s == t && p < q)
  | _, _ => false

/-- The magnitude. -/
def abs : Number → Number
  | .whole i => .whole i.natAbs
  | .real x => .real x.abs

/-- The nearest double; none for a whole number that rounds beyond the largest. -/
def nearest? : Number → Option Float
  | .whole i =>
    let x := Float.ofInt i
    if x.isInf then none else some x
  | .real x => some x

/-- The double above a double, other than zero and the infinities that end the line. -/
def above (x : Float) : Float :=
  if x < 0.0 then Float.ofBits (x.toBits - 1) else Float.ofBits (x.toBits + 1)

/-- The least double that is not smaller than the number, so that a double lies below the one
    exactly if it lies below the other. -/
def leastAbove : Number → Float
  | .whole i =>
    let x := Float.ofInt i
    if less (.real x) (.whole i) then above x else x
  | .real x => x

/-- How many of the numbers 0, 1, 2, … lie below this one. An infinite bound allows more than any
    finite double. -/
def countBelow : Number → Nat
  | .whole i => i.toNat
  | .real x =>
    match exactValue? x with
    | some q => q.ceil.toNat
    | none => if 0.0 < x then Nat.pow 2 1024 else 0

/-- The number as text that reads back as the same number. -/
def text : Number → String
  | .whole i => toString i
  | .real x => Decimal.shortest x

end Number

end LinearSystems
