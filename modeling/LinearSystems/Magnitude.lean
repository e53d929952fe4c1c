import LinearSystems.Comparison
import LinearSystems.Datum.Scalar

/-!
# Magnitudes

The magnitude of a datum: of a number, of each element of an array, or of the data in an array of
arbitrary data. Two things are asked of it: whether it lies below a threshold, and what the largest
one is.
-/

namespace LinearSystems

namespace Datum

/-- The magnitude of a complex number. -/
def complexMagnitude (re im : Float) : Float :=
  if re.isInf || im.isInf then 1.0 / 0.0
  else
    let large := Scalar.larger re.abs im.abs
    if large == 0.0 then 0.0
    else large * Float.sqrt (re / large * (re / large) + im / large * (im / large))

/-- The type of the magnitudes of elements of a type. -/
def magnitudeType : ElementType → ElementType
  | .complex bits => .real (bits / 2)
  | t => t

/-- The magnitude of an element of a type. The least number of a word has none but itself. -/
def elementMagnitude (t : ElementType) (e : Element) : Except Fault Element :=
  match t, e with
  | .truth, e => .ok e
  | .integer signed bits, .number (.whole i) =>
    .ok (.number (.whole (wrapped signed bits i.natAbs)))
  | .real _, .number x => .ok (.number x.abs)
  | .complex bits, .complex re im =>
    .ok (.number (.real (roundTo (bits / 2) (complexMagnitude re im))))
  | .span _, .ticks count => .ok (.ticks (count.map fun n => (n.natAbs : Int)))
  | t, _ => .error (.unreadable (.noOperation "absolute" [t.className]))

/-- Whether the elements of a type have magnitudes. -/
def hasMagnitude (t : ElementType) : Bool :=
  t.isNumber || t matches .span _

/-- The magnitudes of the elements of an array. -/
def arrayMagnitude (a : TypedArray) : Except Fault TypedArray := do
  if !hasMagnitude a.type then
    throw (.unreadable (.noOperation "absolute" [a.type.className]))
  let magnitudes ← a.entries.mapM (elementMagnitude a.type)
  return .ofEntries (magnitudeType a.type) a.shape magnitudes

/-- An element of another type among arbitrary data has to have a magnitude. -/
def checkItemMagnitude : Datum → Except Fault Unit
  | .array { type := t, shape := [], .. } =>
    if hasMagnitude t then .ok () else .error (.unreadable (.noMagnitude (elementName t)))
  | _ => .ok ()

mutual

/-- The magnitude of a datum. -/
def magnitude : Datum → Except Fault Datum
  | .bool b => .ok (.number (.whole (if b then 1 else 0)))
  | .number x => .ok (.number x.abs)
  | .array a => (arrayMagnitude a).map .array
  | .objects [] items => soleMagnitude items
  | .objects (n :: shape) items => (magnitudes items).map (.objects (n :: shape))
  | d => .error (.unreadable (.noMagnitude d.typeName))

/-- The magnitude of the only one of some data. -/
def soleMagnitude : List Datum → Except Fault Datum
  | [d] => do
    checkItemMagnitude d
    return (← d.magnitude).objectItem
  | _ => .error (.unreadable .emptyTruth)

/-- The magnitudes of some data. -/
def magnitudes : List Datum → Except Fault (List Datum)
  | [] => .ok []
  | d :: rest => do
    checkItemMagnitude d
    return (← d.magnitude).objectItem :: (← magnitudes rest)

end

/-- Whether a datum is too small in magnitude for a threshold. -/
def isBelowInMagnitude (value threshold : Datum) : Except Fault Bool := do
  (← value.magnitude).isBelow threshold

/-- The larger one of two data that are no arrays; the later one if they cannot be told apart. -/
def larger (x y : Datum) : Except Fault Datum :=
  match x, y with
  | .number a, .number b => .ok (if a.place?.isSome && b.place?.isSome && !a.less b then x else y)
  | x, y => .error (.unreadable (.unordered ">=" x.itemName y.itemName))

/-- The largest one of the elements of a type; one that is no number leads the others. -/
def largestElement (e : Element) (rest : List Element) : Element :=
  rest.foldl (fun best e =>
    match best, e with
    | .number (.real x), .number (.real y) => .number (.real (Scalar.larger x y))
    | .ticks none, _ => best
    | _, .ticks none => e
    | best, e => if best.below e then e else best) e

/-- The largest one of the elements of an array, of which there has to be one. -/
def largest (d : Datum) : Except Fault Datum :=
  match d with
  | .array a =>
    match a.elements with
    | [] => .error (.misuse .emptyMaximum)
    | e :: rest => .ok (ofElement a.type (largestElement e rest))
  | .objects _ [] => .error (.misuse .emptyMaximum)
  | .objects _ (x :: rest) => rest.foldlM larger x
  | d => .ok d

/-- The largest magnitude in what a datum is as an array. -/
def largestMagnitude (d : Datum) : Except Fault Float := do
  (← (← (← d.asArray).magnitude).largest).realNumber

end Datum

end LinearSystems
