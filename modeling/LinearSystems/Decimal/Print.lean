import LinearSystems.Decimal.Layout

/-!
# Numbers as text

The four texts of a double: the shortest that reads back, a limited count of significant digits, a
fixed count of places with an exponent, and a fixed count of places without one. Rounding is exact,
a half goes to even. A sign is shown for negative zero too; what is not a number has no sign.
-/

namespace LinearSystems.Decimal

/-- Writes a double, given the text of a positive one and the text of zero. -/
def print (positive : Double → List Char) (zero : List Char) (x : Float) : String :=
  match x.toModel.unpack with
  | .notANumber => "nan"
  | .infinity .positive => "inf"
  | .infinity .negative => "-inf"
  | .zero .positive => String.ofList zero
  | .zero .negative => String.ofList ('-' :: zero)
  | .finite .positive m e _ => String.ofList (positive ⟨m, e⟩)
  | .finite .negative m e _ => String.ofList ('-' :: positive ⟨m, e⟩)

/-- The shortest text that reads back as the same double. -/
def shortest (x : Float) : String :=
  print (fun v =>
    readBackStyle.layOut (dropTrailingZeros (digitChars v.shortest.digits)) v.shortest.exponent)
    ['0', '.', '0'] x

/-- At most `count` significant digits, without zeros at the end. -/
def general (count : Nat) (x : Float) : String :=
  print (fun v =>
    let d := significant count v.value
    (limitedStyle count).layOut (dropTrailingZeros (digitChars d.digits)) d.exponent)
    ['0'] x

/-- One digit, `places` digits after the point, and the exponent. -/
def scientific (places : Nat) (x : Float) : String :=
  print (fun v =>
    let d := significant (places + 1) v.value
    withExponent (digitChars d.digits) d.exponent)
    (withExponent (List.replicate (places + 1) '0') 0) x

/-- All digits before the point and `places` digits after it. -/
def fixed (places : Nat) (x : Float) : String :=
  print (fun v => withPoint ((v.value.inUnits (-places)).round) places)
    (withPoint 0 places) x

end LinearSystems.Decimal
