import LinearSystems.Calendar.Step

/-!
# Element types

The types that the elements of an array can have, and the type of an array that holds elements of
two types. Numbers of two types meet in the smallest type that keeps both, whole numbers of both
signs that fit no word in double precision. Where numbers meet texts, all become texts that are wide
enough for the longest number; whole numbers that meet spans of time count their steps. What meets
nowhere is kept as arbitrary objects.
-/

namespace LinearSystems

/-- The type of the elements of an array. The sizes of numbers are in bits, those of texts in
    characters. -/
inductive ElementType where
  | truth
  | integer (signed : Bool) (bits : Nat)
  | real (bits : Nat)
  | complex (bits : Nat)
  /-- Texts of plain characters, one byte each. -/
  | bytes (width : Nat)
  | text (width : Nat)
  /-- Spans of time, counted in steps of a calendar. -/
  | span (step : Calendar.Step)
  /-- Times, counted in steps of a calendar. -/
  | date (step : Calendar.Step)
  /-- Texts of any width. -/
  | openText
  /-- Bytes that stand for nothing else. -/
  | raw (size : Nat)
  /-- Several fields in each element, by their description. -/
  | compound (fields : String)
  | object
  deriving DecidableEq, Repr

namespace ElementType

/-- The name of a type. A text type holds at least one character. -/
def name : ElementType → String
  | .truth => "bool"
  | .integer true bits => "int" ++ toString bits
  | .integer false bits => "uint" ++ toString bits
  | .real bits => "float" ++ toString bits
  | .complex bits => "complex" ++ toString bits
  | .bytes width => "|S" ++ toString (max 1 width)
  | .text width => "<U" ++ toString (max 1 width)
  | .span step => "timedelta64" ++ step.text
  | .date step => "datetime64" ++ step.text
  | .openText => "StringDType()"
  | .raw size => "|V" ++ toString size
  | .compound fields => fields
  | .object => "object"

/-- The code of a type whose elements are stored with their highest byte first; a type without an
    order of bytes keeps its name. -/
def highByteName : ElementType → String
  | .integer true bits => ">i" ++ toString (bits / 8)
  | .integer false bits => ">u" ++ toString (bits / 8)
  | .real bits => ">f" ++ toString (bits / 8)
  | .complex bits => ">c" ++ toString (bits / 8)
  | .text width => ">U" ++ toString (max 1 width)
  | .span step => ">m8" ++ step.text
  | .date step => ">M8" ++ step.text
  | t => t.name

/-- Whether the order of the bytes of an element matters. -/
def hasByteOrder : ElementType → Bool
  | .integer _ bits => bits != 8
  | .real _ => true
  | .complex _ => true
  | .text _ => true
  | .span _ => true
  | .date _ => true
  | _ => false

/-- The short code of a type of a field, with the order of its bytes if that matters. -/
def fieldCode (highByteFirst : Bool) (t : ElementType) : String :=
  let order := if !t.hasByteOrder then "" else if highByteFirst then ">" else "<"
  match t with
  | .truth => "?"
  | .integer true bits => order ++ "i" ++ toString (bits / 8)
  | .integer false bits => order ++ "u" ++ toString (bits / 8)
  | .real bits => order ++ "f" ++ toString (bits / 8)
  | .complex bits => order ++ "c" ++ toString (bits / 8)
  | .bytes width => "S" ++ toString width
  | .text width => order ++ "U" ++ toString width
  | .span step => order ++ "m8" ++ step.text
  | .date step => order ++ "M8" ++ step.text
  | .openText => "T"
  | .raw size => "V" ++ toString size
  | .compound fields => fields
  | .object => "O"

/-- The bytes that an element takes up, those of the fields of a compound one aside. -/
def byteCount : ElementType → Nat
  | .truth => 1
  | .integer _ bits => bits / 8
  | .real bits => bits / 8
  | .complex bits => bits / 8
  | .bytes width => width
  | .text width => 4 * width
  | .span _ => 8
  | .date _ => 8
  | .openText => 16
  | .raw size => size
  | .compound _ => 0
  | .object => 8

/-- What a type is called where an operation is not made for it. -/
def className : ElementType → String
  | .truth => "BoolDType"
  | .integer true bits => "Int" ++ toString bits ++ "DType"
  | .integer false bits => "UInt" ++ toString bits ++ "DType"
  | .real 128 => "LongDoubleDType"
  | .real bits => "Float" ++ toString bits ++ "DType"
  | .complex 256 => "CLongDoubleDType"
  | .complex bits => "Complex" ++ toString bits ++ "DType"
  | .bytes _ => "BytesDType"
  | .text _ => "StrDType"
  | .span _ => "TimeDelta64DType"
  | .date _ => "DateTime64DType"
  | .openText => "StringDType"
  | .raw _ => "VoidDType"
  | .compound _ => "VoidDType"
  | .object => "ObjectDType"

/-- Whether the elements are real numbers. Spans of time count as whole numbers. -/
def isReal : ElementType → Bool
  | .integer .. => true
  | .real _ => true
  | .span _ => true
  | _ => false

/-- The most digits of a whole number without a sign. -/
def digits (bits : Nat) : Nat :=
  if bits ≤ 8 then 3 else if bits ≤ 16 then 5 else if bits ≤ 32 then 10 else 20

/-- The most characters of a time that is counted in a unit: a year takes up to 21 of them. -/
def dateCharacters : Option Calendar.TimeUnit → Nat
  | none => 4
  | some .year => 22
  | some .month => 25
  | some .week => 28
  | some u =>
    let places := u.rank - Calendar.TimeUnit.day.rank
    28 + 3 * places + (if Calendar.TimeUnit.day.rank < u.rank then 1 else 0)
      + (if Calendar.TimeUnit.second.rank < u.rank then 1 else 0)

/-- How many characters an element takes up when it stands among texts. -/
def characters : ElementType → Nat
  | .truth => 5
  | .integer true bits => digits bits + 1
  | .integer false bits => digits bits
  | .real bits => if 64 < bits then 48 else 32
  | .complex bits => if 128 < bits then 96 else 64
  | .bytes width => width
  | .text width => width
  | .span _ => 21
  | .date step => dateCharacters step.unit
  | .openText => 0
  | .raw size => size
  | .compound _ => 0
  | .object => 0

/-- The size of the smallest real type for whole numbers of a size. -/
def realBits (bits : Nat) : Nat :=
  if bits ≤ 8 then 16 else if bits ≤ 16 then 32 else 64

/-- The type of whole numbers of one type with a sign and one without. -/
def joinSigned (signedBits unsignedBits : Nat) : ElementType :=
  if unsignedBits < signedBits then .integer true signedBits
  else if unsignedBits < 64 then .integer true (2 * unsignedBits)
  else .real 64

/-- The type of spans of time with whole numbers or truth values among them: a whole number has to
    fit the count of a span. -/
def joinCount (step : Calendar.Step) : ElementType → ElementType
  | .truth => .span step
  | .integer true _ => .span step
  | .integer false bits => if bits < 64 then .span step else .object
  | _ => .object

/-- The type of spans of time of two steps, which have to be made of a common one. -/
def joinSpans (s t : Calendar.Step) : ElementType :=
  if s.isCommensurable t then .span (s.join t) else .object

/-- The type of an array that holds elements of two types. -/
def join : ElementType → ElementType → ElementType
  | .truth, .truth => .truth
  | .truth, .integer s b => .integer s b
  | .integer s b, .truth => .integer s b
  | .truth, .real b => .real b
  | .real b, .truth => .real b
  | .truth, .complex b => .complex b
  | .complex b, .truth => .complex b
  | .integer true b, .integer true c => .integer true (max b c)
  | .integer false b, .integer false c => .integer false (max b c)
  | .integer true b, .integer false c => joinSigned b c
  | .integer false b, .integer true c => joinSigned c b
  | .integer _ b, .real c => .real (max (realBits b) c)
  | .real b, .integer _ c => .real (max b (realBits c))
  | .integer _ b, .complex c => .complex (max (2 * realBits b) c)
  | .complex b, .integer _ c => .complex (max b (2 * realBits c))
  | .real b, .real c => .real (max b c)
  | .real b, .complex c => .complex (max (2 * b) c)
  | .complex b, .real c => .complex (max b (2 * c))
  | .complex b, .complex c => .complex (max b c)
  | .date s, .date t => .date (s.join t)
  | .date s, .span t => .date (s.join t)
  | .span s, .date t => .date (s.join t)
  | .date _, _ => .object
  | _, .date _ => .object
  | .span s, .span t => joinSpans s t
  | .span s, t => joinCount s t
  | t, .span s => joinCount s t
  | .object, _ => .object
  | _, .object => .object
  | .compound fields, .compound _ => .compound fields
  | .raw a, .raw b => .raw (max a b)
  | .openText, .openText => .openText
  | .openText, .text _ => .openText
  | .text _, .openText => .openText
  | .compound _, _ => .object
  | _, .compound _ => .object
  | .raw _, _ => .object
  | _, .raw _ => .object
  | .openText, _ => .object
  | _, .openText => .object
  | .text a, t => .text (max a t.characters)
  | t, .text a => .text (max t.characters a)
  | .bytes a, t => .bytes (max a t.characters)
  | t, .bytes a => .bytes (max t.characters a)

/-- The type of an array that holds elements of some types; of none, double precision. -/
def joinAll : List ElementType → ElementType
  | [] => .real 64
  | t :: ts => ts.foldl join t

theorem joinSigned_ne_truth (b c : Nat) : joinSigned b c ≠ .truth := by
  unfold joinSigned
  split
  · simp
  · split <;> simp

theorem joinCount_ne_truth (s : Calendar.Step) (t : ElementType) : joinCount s t ≠ .truth := by
  unfold joinCount
  split
  · simp
  · simp
  · split <;> simp
  · simp

theorem joinSpans_ne_truth (s t : Calendar.Step) : joinSpans s t ≠ .truth := by
  unfold joinSpans
  split <;> simp

/-- Only truth values meet in truth values. -/
theorem join_eq_truth {s t : ElementType} : join s t = .truth ↔ s = .truth ∧ t = .truth := by
  constructor
  · intro h
    unfold join at h
    split at h <;> simp_all [joinSigned_ne_truth, joinCount_ne_truth, joinSpans_ne_truth]
  · rintro ⟨rfl, rfl⟩
    rfl

end ElementType

end LinearSystems
