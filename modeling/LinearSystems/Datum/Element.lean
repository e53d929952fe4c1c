import LinearSystems.Datum.Reading

/-!
# Data as elements of a type

How a datum becomes an element of an array whose type is known: truth values by their truth, whole
numbers within the range of their type, real numbers rounded to it, texts cut to their width, times
as they are written. An element of another array is converted instead: a number loses what the new
type cannot hold.
-/

namespace LinearSystems

/-- A text without the characters of code zero at its end, which an array does not keep. -/
def storedText (text : List Char) : String :=
  String.ofList (text.reverse.dropWhile fun c => c.toNat = 0).reverse

/-- The element of a complex type whose parts have a size in bits. -/
def Element.ofParts (bits : Nat) (re im : Float) : Element :=
  .complex (roundTo bits re) (roundTo bits im)

/-- A text of plain characters, each of which fits seven bits. -/
def Element.ofPlainText (width : Nat) (text : List Char) : Except Fault Element :=
  let isPlain := fun c : Char => c.toNat < 128
  match (text.dropWhile isPlain).takeWhile fun c => !isPlain c with
  | [] => .ok (.text (storedText (text.take width)))
  | run => .error (.unreadable (.notPlain (text.takeWhile isPlain).length run))

/-- A text that is cut to a width. -/
def Element.ofText (width : Nat) (text : List Char) : Element :=
  .text (storedText (text.take width))

/-- The least whole number that is beyond all words that a type is read from. -/
def wordLimit (signed : Bool) (bits : Nat) : Int :=
  if !signed && 32 ≤ bits then Int.pow 2 64 else Int.pow 2 63

/-- A whole number that fits a word. -/
def checkWord (signed : Bool) (bits : Nat) (i : Int) : Except Fault Unit :=
  if i < -Int.pow 2 63 ∨ wordLimit signed bits ≤ i then .error (.unreadable .beyondWord) else .ok ()

/-- A whole number as an element of a type, outside of whose range it is a fault. -/
def Element.ofWhole (signed : Bool) (bits : Nat) (i : Int) : Except Fault Element := do
  checkWord signed bits i
  if wrapped signed bits i = i then
    return .number (.whole i)
  throw (.unreadable (.beyondType i (.integer signed bits)))

/-- A text as a time. In no unit there is no time. -/
def Element.ofDateText (step : Calendar.Step) (text : String) : Except Fault Element :=
  if Calendar.isNoTime text then .ok (.ticks none)
  else if step.unit.isNone then .error (.unreadable .openTime)
  else
    match Calendar.readDate text with
    | .ok (moment, _) => .ok (.ticks (some (moment.ticks step)))
    | .error defect => .error (.unreadable (.noDate text defect))

/-- A text as a span of time: a whole number, or no time. -/
def Element.ofSpanText (text : String) : Except Fault Element :=
  if Calendar.isNoTime text then .ok (.ticks none)
  else
    match Numeral.whole? text with
    | some i => .ok (.ticks (some i))
    | none => .error (.unreadable (.noTime "timedelta"))

/-- A count of steps, which has to fit a word. The least of all stands for no time. -/
def Element.ofCount (i : Int) : Except Fault Element :=
  if fitsWord i then .ok (.ticks (if i = noTime then none else some i))
  else .error (.unreadable .beyondCount)

/-- A whole number as a time, which has to be counted in some unit. -/
def Element.ofDateCount (step : Calendar.Step) (i : Int) : Except Fault Element :=
  if step.unit.isNone then .error (.unreadable .openCount) else Element.ofCount i

namespace Datum

/-- The datum that an array without dimensions holds; any other datum itself. -/
def content : Datum → Datum
  | .objects [] [d] => d
  | d => d

/-- The whole number that a datum is by itself. -/
def count? : Datum → Option Int
  | .bool b => some (if b then 1 else 0)
  | .number (.whole i) => some i
  | _ => none

/-- A datum as a whole number of a type, in whose range it has to be. A double loses its fraction
    first. -/
def wholeElement (signed : Bool) (bits : Nat) (d : Datum) : Except Fault Element := do
  Element.ofWhole signed bits (← d.anyWhole)

/-- A datum as a complex number whose parts have a size in bits. -/
def complexElement (bits : Nat) : Datum → Except Fault Element
  | .null => .ok (.complex noNumber noNumber)
  | .text s =>
    match Numeral.complex? s with
    | some (re, im) => .ok (Element.ofParts bits re im)
    | none => .error (.unreadable .noComplexNumeral)
  | .record _ => .error (.unreadable (.noComplex (Datum.record []).typeName))
  | d => d.double.map fun x => Element.ofParts bits x 0.0

/-- A datum as a time. -/
def dateElement (step : Calendar.Step) : Datum → Except Fault Element
  | .null => .ok (.ticks none)
  | .text s => Element.ofDateText step s
  | d =>
    match d.count? with
    | some i => Element.ofDateCount step i
    | none => .error (.unreadable (.noTime "datetime"))

/-- A datum as a span of time. -/
def spanElement : Datum → Except Fault Element
  | .null => .ok (.ticks none)
  | .text s => Element.ofSpanText s
  | d =>
    match d.count? with
    | some i => Element.ofCount i
    | none => .error (.unreadable (.noTime "timedelta"))

/-- A datum that is no array, as an element of a type. -/
def readElement (t : ElementType) (d : Datum) : Except Fault Element :=
  match t with
  | .truth => d.truth.map .truth
  | .integer signed bits => wholeElement signed bits d
  | .real bits => d.double.map fun x => .number (.real (roundTo bits x))
  | .complex bits => complexElement (bits / 2) d
  | .bytes width => Element.ofPlainText width d.shown.toList
  | .text width => .ok (Element.ofText width d.shown.toList)
  | .span _ => spanElement d
  | .date step => dateElement step d
  | .openText => .ok (.text d.shown)
  | .raw _ => .error (.unreadable (.noBytes false d.ownerName))
  | .compound _ => .ok (.compound d.shown true)
  | .object => .ok (.text d.shown)

end Datum

namespace Element

/-- A count of steps of one calendar, counted in steps of another. Times keep their moment. -/
def recount (source target : ElementType) (n : Int) : Int :=
  match source, target with
  | .date s, .date t =>
    match s.unit with
    | some u => (Calendar.Moment.ofUnits u (n * s.count)).ticks t
    | none => n
  | .span s, .span t =>
    match s.unit, t.unit with
    | some u, some v => n * (s.count * u.factor v) / (t.count * v.factor u)
    | _, _ => n
  | _, _ => n

/-- The count of steps that an element without one stands for. -/
def asCount : Element → Option Int
  | .number (.real x) => if x.isNaN then none else some (truncated x)
  | .complex re _ => if re.isNaN then none else some (truncated re)
  | e => some (truncated e.toFloat)

/-- An element of one type, converted to another. -/
def convert (source target : ElementType) (e : Element) : Except Fault Element :=
  match target, e with
  | .truth, .text s => (Datum.wholeOfText s (wholeText source s)).map fun i => .truth (i != 0)
  | .truth, e => .ok (.truth e.isTrue)
  | .integer signed bits, .text s => do
    Element.ofWhole signed bits (← Datum.wholeOfText s (wholeText source s))
  | .integer signed bits, e =>
    (Datum.wholeOfElement source e).map fun i => .number (.whole (wrapped signed bits i))
  | .real bits, e => (Datum.doubleOfElement source e).map fun x => .number (.real (roundTo bits x))
  | .complex bits, .text s => Datum.complexElement (bits / 2) (.text s)
  | .complex bits, e => .ok (Element.ofParts (bits / 2) e.toFloat e.imaginary)
  | .bytes width, .text s => Element.ofPlainText width s.toList
  | .bytes width, e => Element.ofPlainText width (e.shown source).toList
  | .text width, .text s => .ok (Element.ofText width s.toList)
  | .text width, e => .ok (Element.ofText width (e.shown source).toList)
  | .span _, .text s =>
    (Datum.wholeOfText s (wholeText source s)).map fun i => .ticks (some i)
  | .span _, .number (.whole i) => .ok (.ticks (some i))
  | .span _, .ticks count => .ok (.ticks (count.map (recount source target)))
  | .span _, e => .ok (.ticks e.asCount)
  | .date step, .text s => Element.ofDateText step s
  | .date _, .number (.whole i) => .ok (.ticks (some i))
  | .date _, .ticks count => .ok (.ticks (count.map (recount source target)))
  | .date _, e => .ok (.ticks e.asCount)
  | .openText, .text s => .ok (.text s)
  | .openText, e => .ok (.text (e.shown source))
  | .raw _, e => .ok e
  | .compound _, e => .ok e
  | .object, e => .ok e

/-- A datum as an element of a type: an element of an array is converted, any other datum read. -/
def ofDatum (t : ElementType) (d : Datum) : Except Fault Element :=
  match d.content with
  | .array { type := source, elements := [e], .. } => convert source t e
  | d => d.readElement t

end Element

end LinearSystems
