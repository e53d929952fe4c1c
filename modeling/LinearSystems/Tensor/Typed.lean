import LinearSystems.Datum.Element
import LinearSystems.ElementType.Format
import LinearSystems.Tensor.Entrywise

/-!
# Arrays of an element type

Every element of an array becomes one of its type. A type of texts of an open width is wide enough
for the longest of the elements, and an open calendar type counts in the finest unit that the
elements are written in. Every field of a compound type is made from the whole element. Elements may
be repeated in further dimensions. Where no type is declared it follows from the elements.
-/

namespace LinearSystems

namespace Declaration

/-- How many characters a single element takes up as a text. An element of an array counts by its
    type. -/
def charactersOf : Datum → Nat
  | .array a => a.type.characters
  | d => d.shown.length

/-- The step that a single element is counted in, if it tells one. -/
def stepOf : Datum → Calendar.Step
  | .text s => Calendar.unitOf s
  | .array a =>
    match a.type with
    | .date step => step
    | .span step => step
    | _ => .unspecified
  | _ => .unspecified

/-- The type of an array of some elements. -/
def resolve (elements : List Datum) : Declaration → ElementType
  | .fixed (.date step) =>
    .date (if step.unit.isSome then step
      else (elements.map stepOf).foldl Calendar.Step.join .unspecified)
  | .fixed t => t
  | .character => .bytes 1
  | .anyBytes => .bytes ((elements.map charactersOf).foldl max 0)
  | .anyText => .text ((elements.map charactersOf).foldl max 0)
  | .anyRaw => .raw (if elements.isEmpty then 8 else (elements.map charactersOf).foldl max 0)

/-- The type of a field, which leaves no width open. -/
def fieldType : Declaration → ElementType
  | .fixed t => t
  | .anyBytes => .bytes 0
  | .anyText => .text 0
  | .anyRaw => .raw 0
  | .character => .bytes 1

/-- The short code of the type of a field in quotes, or the fields of a compound one. -/
def fieldCode (highByteFirst : Bool) : Declaration → String
  | .fixed (.compound fields) => fields
  | .anyBytes => Text.quoted "S"
  | .anyText => Text.quoted (if highByteFirst then ">U" else "<U")
  | .anyRaw => Text.quoted "V"
  | d => Text.quoted (d.fieldType.fieldCode highByteFirst)

end Declaration

/-- The description of a field of a compound type. -/
def Field.text (f : Field) : String :=
  let d := f.content
  "(" ++ Text.quoted f.name ++ ", " ++ d.declaration.fieldCode d.highByteFirst
    ++ (if d.repeats.isEmpty then "" else ", " ++ shapeText d.repeats) ++ ")"

/-- The description of a compound type. -/
def Field.listText (fields : List Field) : String :=
  "[" ++ ", ".intercalate (fields.map Field.text) ++ "]"

namespace TypedArray

/-- Every element several times in a row. -/
def repeated (n : Nat) (elements : List Element) : List Element :=
  elements.flatMap (List.replicate n)

theorem length_repeated (n : Nat) (elements : List Element) :
    (repeated n elements).length = elements.length * n := by
  induction elements with
  | nil => simp [repeated]
  | cons e rest ih =>
    rw [repeated] at ih
    simp [repeated, ih, Nat.succ_mul, Nat.add_comm]

/-- The array with each element repeated in further dimensions. -/
def repeatIn (a : TypedArray) (dimensions : List Nat) : TypedArray where
  type := a.type
  shape := a.shape ++ dimensions
  elements := repeated (volume dimensions) a.elements
  length_eq := by rw [length_repeated, a.length_eq, volume_append]
  highByteFirst := a.highByteFirst

/-- The array repeated to fill another shape, which it has to fit. -/
def filling (a : TypedArray) (target : List Nat) : Except Fault TypedArray :=
  let elements := spreadOver a.shape target a.elements.toArray
  if h : Tensor.spreadsTo a.shape target ∧ elements.length = volume target then
    .ok { a with shape := target, elements, length_eq := h.2 }
  else .error (.unreadable (.notArray (.unfit a.shape target)))

/-- A text repeated in some dimensions, in nested brackets. -/
def repeatedText : (dimensions : List Nat) → String → String
  | [], text => text
  | n :: rest, text => "[" ++ ", ".intercalate (List.replicate n (repeatedText rest text)) ++ "]"

/-- The fields of an element in parentheses. -/
def fieldsText : List String → String
  | [text] => "(" ++ text ++ ",)"
  | texts => "(" ++ ", ".intercalate texts ++ ")"

/-- The elements of a field of a compound type, which are all made from the same data. -/
def fieldElements (leaves : List Datum) (f : Field) : Except Fault (List Element) :=
  leaves.mapM (Element.ofDatum f.content.declaration.fieldType)

/-- How a field is shown in all elements. -/
def fieldTexts (isSole : Bool) (elements : List Element) (f : Field) : List String :=
  (layOut f.content.declaration.fieldType isSole elements).map (repeatedText f.content.repeats)

/-- An array of a compound type: every field of an element is made from the same datum. -/
def ofFields (fields : List Field) (N : Tensor.Nesting) : Except Fault TypedArray := do
  let columns ← fields.mapM (fieldElements N.leaves)
  let texts := (columns.zip fields).map fun (column, f) => fieldTexts N.shape.isEmpty column f
  let elementAt := fun i : Nat =>
    Element.compound (fieldsText (texts.map fun column => column.getD i ""))
      (columns.any fun column => (column[i]?.map Element.isTrue).getD false)
  return {
    type := .compound (Field.listText fields)
    shape := N.shape
    elements := (List.range (volume N.shape)).map elementAt
    length_eq := by simp }

/-- An array of elements that become elements of a type one by one. -/
def ofElements (t : ElementType) (N : Tensor.Nesting) : Except Fault TypedArray :=
  let leaves : Vector Datum (volume N.shape) := ⟨N.leaves.toArray, by simp [N.length_eq]⟩
  (leaves.mapM (Element.ofDatum t)).map (ofEntries t N.shape)

end TypedArray

namespace Datum

/-- Whether a count of steps of a type stands for a moment or a span that is told in parts, from
    years down to microseconds. Other counts are told as whole numbers. -/
def isToldInParts (t : ElementType) (n : Int) : Bool :=
  match t with
  | .date { unit := some u, count } =>
    let year := (Calendar.Moment.ofUnits u (n * count)).year
    u.rank ≤ Calendar.TimeUnit.micro.rank && 1 ≤ year && year ≤ 9999
  | .span { unit := some u, .. } => u.rank ≤ Calendar.TimeUnit.micro.rank && !u.isMonthly
  | _ => false

/-- An element of an array by itself. What is neither a truth value nor a number nor a text stays an
    array without dimensions. -/
def ofElement (t : ElementType) (e : Element) : Datum :=
  match e, t with
  | .truth b, _ => .bool b
  | .number x, _ => .number x
  | .text s, .text _ => .text s
  | .ticks none, _ => .null
  | .ticks (some n), t =>
    if isToldInParts t n then .array (.sole t (.ticks (some n))) else .number (.whole n)
  | e, t => .array (.sole t e)

/-- What an element by itself is called that is neither a truth value nor a number nor a text. -/
def elementName : ElementType → String
  | .complex _ => "complex"
  | .bytes _ => "bytes"
  | .span _ => "datetime.timedelta"
  | .date { unit := some u, .. } =>
    if u.rank ≤ Calendar.TimeUnit.day.rank then "datetime.date" else "datetime.datetime"
  | t => t.name

/-- The name of the kind of a datum among arbitrary data. -/
def itemName : Datum → String
  | .array { type := t, shape := [], .. } => elementName t
  | d => d.ownerName

/-- An element among arbitrary data. -/
def objectItem : Datum → Datum
  | .array { type := t, elements := [e], .. } => ofElement t e
  | .objects [] [d] => d
  | d => d

/-- The data some dimensions deep. -/
def dataAt : (depth : Nat) → List Datum → List Datum
  | 0, items => items
  | depth + 1, items => dataAt depth (items.flatMap parts)

/-- An array of arbitrary data: what is nested without being uniform stays a list. -/
def ofObjects (d : Datum) : Datum :=
  match Tensor.nesting d with
  | .ok N => .objects N.shape (N.leaves.map objectItem)
  | .error (.ragged shape) => .objects shape (dataAt shape.length [d])
  | .error _ => .objects [] [d]

/-- A datum as an array, of the type that follows from the elements. -/
def asArray : Datum → Except Fault Datum
  | .array a => .ok (.array a)
  | .objects shape items => .ok (.objects shape items)
  | d =>
    match Tensor.nesting d with
    | .error defect => .error (.unreadable (.notArray defect))
    | .ok N =>
      if d.elementType = .object then .ok (.objects N.shape (N.leaves.map objectItem))
      else (TypedArray.ofElements d.elementType N).map .array

/-- The data that something consists of where several are expected: the elements of a list, the
    characters of a text, or the names of a record. -/
def several : Datum → Except Fault (List Datum)
  | .list items => .ok items
  | .text s => .ok (s.toList.map fun c => .text (String.ofList [c]))
  | .record fields => .ok (fields.map fun field => .text field.1)
  | .null => .error (.unreadable (.notIterable Datum.null.typeName))
  | d =>
    match d.parts? with
    | some parts => .ok parts
    | none => .error (.unreadable (if d.isArray then .noElements else .notIterable d.typeName))

/-- A dimension, which is a whole number. -/
def dimension : Datum → Except Fault Int
  | .number (.whole i) =>
    if fitsWord i then .ok i else .error (.unreadable .dimensionTooLarge)
  | .bool _ => .error (.unreadable .truthAsDimension)
  | .array { type := .integer .., shape := [], elements := [.number (.whole i)], .. } => .ok i
  | d => .error (.unreadable (.noDimension d.ownerName))

/-- The least count of doubles that no storage could be addressed in. -/
def sizeLimit : Nat := Nat.pow 2 60

/-- An array of zeros with given dimensions, which are whole numbers from zero on. -/
def ofZeros (dimensions : Datum) : Except Fault Datum := do
  let items ← dimensions.several
  if Tensor.maxRank < items.length then
    throw (.unreadable (.tooManyDimensions Tensor.maxRank items.length))
  let sizes ← items.mapM dimension
  if sizes.any (· < 0) then
    throw (.unreadable .negativeDimension)
  let shape := sizes.map Int.toNat
  if sizeLimit ≤ volume (shape.filter (· != 0)) then
    throw (.unreadable .tooManyElements)
  return .array (.ofTensor (Tensor.zeros shape))

end Datum

end LinearSystems
