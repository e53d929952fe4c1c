import LinearSystems.Calendar.Date
import LinearSystems.Text.Quoted
import LinearSystems.TypedArray.Brackets
import LinearSystems.TypedArray.RealText

/-!
# Arrays as text

How a message shows an array: the elements in nested brackets, all of one layout, and the element
type where it does not follow from the elements. An array without dimensions is its only element,
which by itself is shown as the shortest text that tells it from the others of its type.
-/

namespace LinearSystems

open RealText

/-- A complex number by itself. Without a real part it is its imaginary part. -/
def complexText (text : Float → String) (re im : Float) : String :=
  let part := fun x => let t := text x; if t.endsWith ".0" then (t.dropEnd 2).copy else t
  if re == 0.0 && (1.0 / re) > 0.0 then part im ++ "j"
  else "(" ++ part re ++ withPlus (part im) ++ "j)"

/-- The shortest text that tells a number from the others of its size in bits. -/
def shortText (bits : Nat) (x : Float) : String :=
  Decimal.print (fun v =>
    let d := fewestDigits bits x v
    Decimal.readBackStyle.layOut (shownDigits d) d.exponent)
    ['0', '.', '0'] x

/-- What stands for no time. -/
def noTimeText : String := "NaT"

/-- An element of a type by itself. -/
def Element.shown (t : ElementType) (e : Element) : String :=
  match e, t with
  | .truth b, _ => if b then "True" else "False"
  | .number (.real x), .real bits => shortText bits x
  | .number x, _ => x.text
  | .complex re im, .complex bits => complexText (shortText (bits / 2)) re im
  | .complex re im, _ => complexText Decimal.shortest re im
  | .text s, .bytes _ => "b" ++ Text.quoted s
  | .text s, _ => s
  | .ticks none, _ => noTimeText
  | .ticks (some n), .date step => Calendar.dateText step n
  | .ticks (some n), .span step => Calendar.spanText step n
  | .ticks (some n), _ => toString n
  | .compound shown _, _ => shown

namespace TypedArray

/-- A quoted element among others. -/
def quotedText : Element → String
  | .text s => Text.quoted s
  | _ => ""

/-- The count of an element among spans of time, or the moment among times; none for no time. -/
def timeText? (t : ElementType) : Element → Option String
  | .ticks (some n) =>
    match t with
    | .date step => some ("'" ++ Calendar.dateText step n ++ "'")
    | _ => some (toString n)
  | _ => none

/-- Times or spans of time, all as wide as the widest of them. -/
def timeTexts (t : ElementType) (elements : List Element) : List String :=
  let texts := elements.map (timeText? t)
  let none := "'" ++ noTimeText ++ "'"
  let width := max (widest (texts.filterMap id))
    (if texts.all Option.isSome then 0 else none.length)
  texts.map fun text => padLeft width (text.getD none)

/-- Elements of a type, all of one layout. Truth values of an array with dimensions are all as wide
    as the longer of their two names. -/
def layOut (t : ElementType) (isSole : Bool) (elements : List Element) : List String :=
  let plain := fun e : Element => e.shown t
  match t with
  | .truth => elements.map fun e => padLeft (if isSole then 0 else 5) (plain e)
  | .real bits => columns bits false (elements.map Element.toFloat)
  | .complex bits =>
    complexColumns (bits / 2) (elements.map fun e => (e.toFloat, e.imaginary))
  | .bytes _ => elements.map fun e => "b" ++ quotedText e
  | .text _ => elements.map quotedText
  | .openText => elements.map quotedText
  | .compound _ => elements.map plain
  | .span _ => timeTexts t elements
  | .date _ => timeTexts t elements
  | _ => (elements.map plain).map (padLeft (widest (elements.map plain)))

/-- The elements of an array that are shown. -/
def words (a : TypedArray) : List String :=
  layOut a.type a.shape.isEmpty (Brackets.shownElements a.shape a.elements)

/-- Whether a type follows from the elements that are shown. -/
def isImplied : ElementType → Bool
  | .truth => true
  | .integer true 64 => true
  | .real 64 => true
  | .complex 128 => true
  | _ => false

/-- The name of a type as a message shows it: quoted unless it is a single word or describes
    itself. -/
def typeText (t : ElementType) (name : String) : String :=
  match t with
  | .openText => name
  | .compound _ => name
  | _ => if name.toList.all Char.isAlphanum then name else Text.quoted name

/-- The note on the type of the elements, where they do not tell it. -/
def typeNote (a : TypedArray) : List String :=
  if a.elements.isEmpty || a.showsByteOrder || !isImplied a.type then
    ["dtype=" ++ typeText a.type a.typeName]
  else []

/-- The array as a message shows it. -/
def literal (a : TypedArray) : String :=
  Brackets.literal a.shape a.words (Brackets.shapeNote a.shape ++ a.typeNote)

/-- The array without its type. Without dimensions it is its element. -/
def bare (a : TypedArray) : String :=
  match a.shape, a.elements with
  | [], [e] => e.shown a.type
  | _, _ => Brackets.bare a.shape a.words

end TypedArray

end LinearSystems
