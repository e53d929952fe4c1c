import LinearSystems.Datum.Element
import LinearSystems.Tensor.Typed

/-!
# Sums

What a datum becomes when a whole number is added to it. An array takes the number on in each of its
elements, in their type; a sequence is joined with sequences only, and what is no number has no sum.
-/

namespace LinearSystems

namespace Datum

/-- On which side of a sum a datum stands. -/
inductive Side where
  | left
  | right
  deriving DecidableEq, Repr

/-- The fault of a datum of a kind that has no sum with a whole number. -/
def noSum (side : Side) (typeName : String) : Fault :=
  let whole := (Datum.number (.whole 0)).typeName
  match side with
  | .left => .unreadable (.noSum typeName whole)
  | .right => .unreadable (.noSum whole typeName)

/-- The fault of a sequence that a whole number is added to. -/
def noJoin (side : Side) (typeName : String) : Fault :=
  match side with
  | .left => .unreadable (.noJoin typeName (Datum.number (.whole 0)).typeName)
  | .right => noSum .right typeName

/-- The type of the sums of elements of a type and a whole number. -/
def sumType : ElementType → ElementType
  | .truth => .integer true 64
  | t => t

/-- The sum of an element of a type and a whole number, which has to fit the type. -/
def elementSum (side : Side) (k : Int) : ElementType → Element → Except Fault Element
  | .truth, e => Element.ofWhole true 64 (k + if e.isTrue then 1 else 0)
  | .integer signed bits, .number (.whole i) => do
    let _ ← Element.ofWhole signed bits k
    return .number (.whole (wrapped signed bits (i + k)))
  | .real bits, .number (.real x) => .ok (.number (.real (roundTo bits (x + Float.ofInt k))))
  | .complex bits, .complex re im => .ok (Element.ofParts (bits / 2) (re + Float.ofInt k) im)
  | .span _, .ticks count => .ok (.ticks (count.map (· + k)))
  | .date _, .ticks count => .ok (.ticks (count.map (· + k)))
  | t, _ =>
    let classes := match side with
      | .left => [t.className, "_PyLongDType"]
      | .right => ["_PyLongDType", t.className]
    .error (.unreadable (.noOperation "add" classes))

/-- The sum of an array of a known type and a whole number, element by element. -/
def arraySum (side : Side) (k : Int) (a : TypedArray) : Except Fault TypedArray :=
  (a.entries.mapM (elementSum side k a.type)).map (TypedArray.ofEntries (sumType a.type) a.shape)

mutual

/-- The sum of a datum on one side and a whole number. -/
def plus (side : Side) (k : Int) : Datum → Except Fault Datum
  | .bool b => .ok (.number (.whole (k + if b then 1 else 0)))
  | .number (.whole i) => .ok (.number (.whole (i + k)))
  | .number (.real x) => .ok (.number (.real (x + Float.ofInt k)))
  | .text s => .error (noJoin side (Datum.text s).typeName)
  | .list items => .error (noJoin side (Datum.list items).typeName)
  | .null => .error (noSum side Datum.null.typeName)
  | .record fields => .error (noSum side (Datum.record fields).typeName)
  | .array a => (arraySum side k a).map .array
  | .objects shape items => (sums side k items).map (.objects shape)

/-- The sums of some data and a whole number. -/
def sums (side : Side) (k : Int) : List Datum → Except Fault (List Datum)
  | [] => .ok []
  | d :: rest => do return (← plus side k d) :: (← sums side k rest)

end

end Datum

end LinearSystems
