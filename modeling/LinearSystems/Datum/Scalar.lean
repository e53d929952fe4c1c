import LinearSystems.Tensor.Typed

/-!
# Single numbers

What a datum stands for where a single number is asked of it by itself: a text is read as a numeral,
an array without dimensions stands for its element, and anything else is a number or none. Nothing
and a list are no numbers here.
-/

namespace LinearSystems

namespace Datum

/-- The only element of an array without dimensions; any other datum as it is. -/
def sole (d : Datum) : Except Fault Datum :=
  match d with
  | .array { type := t, shape := [], elements := [e], .. } => .ok (ofElement t e)
  | .objects [] [d] => .ok d
  | d => if d.isArray then .error (.unreadable .noScalar) else .ok d

/-- The real number that a datum is. -/
def realNumber (d : Datum) : Except Fault Float := do
  match ← d.sole with
  | .text s => doubleOfText s (Text.quoted s)
  | .bool b => return if b then 1.0 else 0.0
  | .number x => doubleOfNumber x
  | found => throw (.unreadable (.noNumber found.itemName))

/-- The whole number that a datum is: a real number loses its fraction. -/
def wholeNumber (d : Datum) : Except Fault Int := do
  match ← d.sole with
  | .text s => wholeOfText s (Text.quoted s)
  | .bool b => return if b then 1 else 0
  | .number x => wholeOfNumber x
  | found => throw (.unreadable (.noWhole found.itemName))

end Datum

end LinearSystems
