import LinearSystems.Datum.Truth
import LinearSystems.Numeral

/-!
# Reading data

What a datum stands for where a number is expected. A datum is taken as far as it can be: nothing is
a double that is no number, a text is read as a numeral, and an array without dimensions stands for
its element. What cannot be taken is a fault that says why.

Elements of an array are converted rather than read: a number loses what the new type cannot hold,
and only a text can be a fault.
-/

namespace LinearSystems

/-- A text among the elements of a type, as a message shows it where it is no number. -/
def Element.numeralText (t : ElementType) (s : String) : String :=
  match t with
  | .bytes _ => "np.bytes_(b" ++ Text.quoted s ++ ")"
  | _ => "np.str_(" ++ Text.quoted s ++ ")"

/-- A text among the elements of a type, as a message shows it where it is no whole number. -/
def Element.wholeText (t : ElementType) (s : String) : String :=
  match t with
  | .bytes _ => "b" ++ Text.quoted s
  | t => Element.numeralText t s

/-- A whole number in a word of some bits, where every `2 ^ bits` numbers look alike. -/
def wrapped (signed : Bool) (bits : Nat) (i : Int) : Int :=
  if signed then Int.bmod i (Nat.pow 2 bits) else i % Int.pow 2 bits

/-- Whether a whole number fits a word of 64 bits with a sign. -/
def fitsWord (i : Int) : Bool :=
  decide (-Int.pow 2 63 ≤ i) && decide (i < Int.pow 2 63)

/-- The whole part of a double, towards zero; the least number of a word where that fits none. -/
def truncated (x : Float) : Int :=
  match Number.exactValue? x with
  | some q =>
    let i := q.num.tdiv q.den
    if fitsWord i then i else noTime
  | none => noTime

namespace Datum

/-- A number as a double. -/
def doubleOfNumber (x : Number) : Except Fault Float :=
  match x.nearest? with
  | some y => .ok y
  | none => .error (.unreadable .beyondDoubles)

/-- A text as a double; how a message shows the text is given. -/
def doubleOfText (s shown : String) : Except Fault Float :=
  match Numeral.real? s with
  | some x => .ok x
  | none => .error (.unreadable (.noNumeral shown))

/-- The value of what is no number. -/
def noNumber : Float := 0.0 / 0.0

/-- An element of a type, converted to a double. -/
def doubleOfElement (t : ElementType) : Element → Except Fault Float
  | .text s => doubleOfText s (Element.numeralText t s)
  | e => .ok e.toFloat

mutual

/-- The double that the datum stands for. -/
def double : Datum → Except Fault Float
  | .null => .ok noNumber
  | .bool b => .ok (if b then 1.0 else 0.0)
  | .number x => doubleOfNumber x
  | .text s => doubleOfText s (Text.quoted s)
  | .list _ => .error (.unreadable .sequence)
  | .record _ => .error (.unreadable (.noNumber (Datum.record []).typeName))
  | .array a =>
    match a.shape, a.elements with
    | [], [e] => doubleOfElement a.type e
    | _, _ => .error (.unreadable .sequence)
  | .objects [] items => soleDouble items
  | .objects (_ :: _) _ => .error (.unreadable .sequence)

/-- The double that the only one of some data stands for. -/
def soleDouble : List Datum → Except Fault Float
  | [d] => d.double
  | _ => .error (.unreadable .sequence)

end

/-- The whole part of a double, towards zero. -/
def wholeOfReal (x : Float) : Except Fault Int :=
  if x.isNaN then .error (.unreadable .nanAsWhole)
  else if x.isInf then .error (.unreadable .infinityAsWhole)
  else .ok (((Number.exactValue? x).map fun q => q.num.tdiv q.den).getD 0)

/-- A text as a whole number; how a message shows the text is given. A text is no whole number if it
    is no numeral, or a longer one than numbers are read from. -/
def wholeOfText (s shown : String) : Except Fault Int :=
  match Numeral.whole? s, Numeral.wholeDigits? s with
  | some i, _ => .ok i
  | none, some (_, ds) => .error (.unreadable (.tooLong Numeral.maxDigits ds.length))
  | none, none => .error (.unreadable (.noWholeNumeral shown))

/-- A number as a whole number: a double loses its fraction. -/
def wholeOfNumber : Number → Except Fault Int
  | .whole i => .ok i
  | .real x => wholeOfReal x

/-- An element of a type, converted to a whole number. -/
def wholeOfElement (t : ElementType) : Element → Except Fault Int
  | .truth b => .ok (if b then 1 else 0)
  | .number (.whole i) => .ok i
  | .number (.real x) => .ok (truncated x)
  | .complex re _ => .ok (truncated re)
  | .text s => wholeOfText s (Element.wholeText t s)
  | .ticks count => .ok (count.getD noTime)
  | .compound _ _ => .ok 0

mutual

/-- The whole number that the datum stands for, of any size. -/
def anyWhole : Datum → Except Fault Int
  | .null => .error (.unreadable (.noWhole Datum.null.typeName))
  | .bool b => .ok (if b then 1 else 0)
  | .number x => wholeOfNumber x
  | .text s => wholeOfText s (Text.quoted s)
  | .list _ => .error (.unreadable .sequence)
  | .record _ => .error (.unreadable (.noWhole (Datum.record []).typeName))
  | .array a =>
    match a.shape, a.elements with
    | [], [e] => wholeOfElement a.type e
    | _, _ => .error (.unreadable .sequence)
  | .objects [] items => soleWhole items
  | .objects (_ :: _) _ => .error (.unreadable .sequence)

/-- The whole number that the only one of some data stands for. -/
def soleWhole : List Datum → Except Fault Int
  | [d] => d.anyWhole
  | _ => .error (.unreadable .sequence)

end

/-- The whole number that the datum stands for, which has to fit a word of 64 bits with a sign. A
    number of a type without a sign is taken as the word of the same bits. -/
def whole (d : Datum) : Except Fault Int := do
  let i ← d.anyWhole
  match d with
  | .array { type := .integer false _, .. } => return wrapped true 64 i
  | _ => if fitsWord i then return i else throw (.unreadable .beyondWord)

end Datum

end LinearSystems
