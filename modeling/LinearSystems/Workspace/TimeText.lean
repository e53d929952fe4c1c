import LinearSystems.Datum.Reading
import LinearSystems.Stopwatch

/-!
# The time of a summary

A summary shows the whole time of a record of times, to four places after the point. Where nothing
was timed it shows none, and where the whole was not timed it shows zero. Times are taken as they
come, so what is no record, or no number, is a fault.
-/

namespace LinearSystems

namespace Datum

/-- A number to four places after the point. -/
def fixedNumber (x : Number) : Except Fault String :=
  (doubleOfNumber x).map (Decimal.fixed 4)

/-- A complex number to four places after the point in both parts. -/
def fixedParts (re im : Float) : String :=
  Decimal.fixed 4 re ++ RealText.withPlus (Decimal.fixed 4 im) ++ "j"

/-- What the text of an element is called. -/
def elementTextName : ElementType → String
  | .text _ => "numpy.str_"
  | _ => (Datum.text "").typeName

/-- An element of a type to four places after the point. Bytes and times are texts here. -/
def fixedElement (t : ElementType) : Element → Except Fault String
  | .number x => fixedNumber x
  | .truth b => fixedNumber (.whole (if b then 1 else 0))
  | .complex re im => .ok (fixedParts re im)
  | _ => .error (.unreadable (.noPlacesForText (elementTextName t)))

mutual

/-- A datum to four places after the point. -/
def fixedText : Datum → Except Fault String
  | .number x => fixedNumber x
  | .bool b => fixedNumber (.whole (if b then 1 else 0))
  | .text s => .error (.unreadable (.noPlacesForText (Datum.text s).typeName))
  | .array a =>
    match a.shape, a.elements with
    | [], [e] => fixedElement a.type e
    | _, _ => .error (.unreadable (.noPlaces (Datum.array a).ownerName))
  | .objects [] items => soleFixedText items
  | d => .error (.unreadable (.noPlaces d.ownerName))

/-- The only one of some data to four places after the point. -/
def soleFixedText : List Datum → Except Fault String
  | [d] => d.fixedText
  | items => .error (.unreadable (.noPlaces (Datum.objects [] items).ownerName))

end

/-- The time that a summary shows for a record of times. -/
def timeText? (timing : Datum) : Except Fault (Option String) := do
  if !(← timing.truth) then
    return none
  match timing with
  | .record times =>
    let total := (times.lookup Stopwatch.totalName).getD (.number (.whole 0))
    return some ((← total.fixedText) ++ "s")
  | d => throw (.misuse (.noMember d.ownerName "get"))

end Datum

end LinearSystems
