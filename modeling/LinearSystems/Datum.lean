import LinearSystems.TypedArray.Print

/-!
# Data as it is given

What a caller may hand over: nothing, a truth value, a number, a text, a list, a record of named
entries, an array with elements of one type, or an array of arbitrary data. Nothing is assumed of
it; the checks say what a solver accepts.
-/

namespace LinearSystems

/-- Data of any kind. -/
inductive Datum where
  | null
  | bool (b : Bool)
  | number (x : Number)
  | text (s : String)
  | list (items : List Datum)
  | record (fields : List (String × Datum))
  | array (a : TypedArray)
  /-- An array of arbitrary data, row by row. -/
  | objects (shape : List Nat) (items : List Datum)

instance : Inhabited Datum := ⟨.null⟩

namespace Datum

/-- The name of the kind of data. -/
def typeName : Datum → String
  | .null => "NoneType"
  | .bool _ => "bool"
  | .number (.whole _) => "int"
  | .number (.real _) => "float"
  | .text _ => "str"
  | .list _ => "list"
  | .record _ => "dict"
  | .array _ => "ndarray"
  | .objects .. => "ndarray"

/-- Whether the datum is a list. -/
def isList : Datum → Bool
  | .list _ => true
  | _ => false

/-- Whether the datum is an array. -/
def isArray : Datum → Bool
  | .array _ => true
  | .objects .. => true
  | _ => false

/-- The name of the kind of data, where it is looked at as an object with members. -/
def ownerName (d : Datum) : String :=
  if d.isArray then "numpy.ndarray" else d.typeName

/-- Joins texts with a separator. -/
def joined (separator : String) (texts : List String) : String :=
  separator.intercalate texts

mutual

/-- The datum as a message shows it: text in quotes, lists in brackets, nothing as `None`. -/
def literal : Datum → String
  | .null => "None"
  | .bool true => "True"
  | .bool false => "False"
  | .number x => x.text
  | .text s => Text.quoted s
  | .list items => "[" ++ joined ", " (literals items) ++ "]"
  | .record fields => "\x7b" ++ joined ", " (fieldLiterals fields) ++ "\x7d"
  | .array a => a.literal
  | .objects shape items =>
    Brackets.literal shape (Brackets.shownElements shape (wordsOf items))
      (Brackets.shapeNote shape ++ ["dtype=object"])

/-- The data of a list, each as a message shows it. -/
def literals : List Datum → List String
  | [] => []
  | item :: rest => literal item :: literals rest

/-- The entries of a record, each with its name in quotes. -/
def fieldLiterals : List (String × Datum) → List String
  | [] => []
  | (name, item) :: rest => (Text.quoted name ++ ": " ++ literal item) :: fieldLiterals rest

/-- The data of an array, each as a message shows it; a list is told apart from a dimension. -/
def wordsOf : List Datum → List String
  | [] => []
  | item :: rest =>
    (if item.isList then "list(" ++ literal item ++ ")" else literal item) :: wordsOf rest

end

mutual

/-- The datum by itself: a text without quotes, an array without its type. -/
def shown : Datum → String
  | .text s => s
  | .array a => a.bare
  | .objects [] items => joined "" (allShown items)
  | .objects (n :: shape) items =>
    Brackets.bare (n :: shape) (Brackets.shownElements (n :: shape) (wordsOf items))
  | d => d.literal

/-- Some data, each by itself. -/
def allShown : List Datum → List String
  | [] => []
  | item :: rest => shown item :: allShown rest

end

/-- The datum within a sentence: an array without dimensions as its element, a number as a
    double. -/
def interpolated (d : Datum) : String :=
  match d with
  | .array a =>
    match a.shape, a.elements with
    | [], [.number (.real x)] => Decimal.shortest x
    | [], [.complex re im] => complexText Decimal.shortest re im
    | _, _ => a.bare
  | d => d.shown

/-- The datum, unless it is absent or nothing. -/
def given? : Option Datum → Option Datum
  | none => none
  | some .null => none
  | some d => some d

/-- A vector of doubles as data. -/
def ofFloats (xs : List Float) : Datum :=
  .list (xs.map fun x => .number (.real x))

/-- A list of rows of doubles as data. -/
def ofRows (rows : List (List Float)) : Datum :=
  .list (rows.map ofFloats)

end Datum

end LinearSystems
