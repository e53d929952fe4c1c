import LinearSystems.Calendar.Reading
import LinearSystems.Datum
import LinearSystems.ElementType.Repeats

/-!
# Unreadable data

Why a datum does not stand for what is expected of it: an array, a number, a whole number, a truth
value, a time, or a place in an order. These faults arise where data is taken as it comes, without
the checks that the solvers make.
-/

namespace LinearSystems

/-- Why nested lists are no array: they stop being uniform below the given dimensions, they are
    nested too deep, or an array in them has a shape that its place cannot take. -/
inductive ShapeDefect where
  | ragged (shape : List Nat)
  | tooDeep (limit : Nat)
  | unfit (found required : List Nat)

/-- The text of a shape defect. -/
def ShapeDefect.message : ShapeDefect → String
  | .ragged shape =>
    "setting an array element with a sequence. The requested array has an inhomogeneous shape "
      ++ "after " ++ toString shape.length ++ " dimensions. The detected shape was "
      ++ shapeText shape ++ " + inhomogeneous part."
  | .tooDeep limit =>
    "setting an array element with a sequence. The requested array would exceed the maximum number "
      ++ "of dimension of " ++ toString limit ++ "."
  | .unfit found required =>
    "could not broadcast input array from shape " ++ narrowShapeText found ++ " into shape "
      ++ narrowShapeText required

/-- Why a datum does not stand for what is expected of it. -/
inductive Unreadable where
  /-- Data that is no array. -/
  | notArray (defect : ShapeDefect)
  /-- An element type that does not exist. -/
  | unknownType (name : String)
  /-- A word of a format of element types that is none, by its number. -/
  | unknownFormat (number : Nat) (format : String)
  /-- Two marks for the order of bytes that differ. -/
  | unequalMarks (first second : String)
  /-- A repetition of elements that cannot be read. -/
  | misspeltRepeats (misspelling : Repeats.Misspelling)
  /-- A repetition that elements do not allow. -/
  | unfitRepeats (excess : Repeats.Excess)
  /-- A format without any word in it, which is refused without a reason. -/
  | unexplained
  /-- Something other than a name for an element type. -/
  | noType (shown : String)
  /-- A field of an element type that is none, as it is shown. -/
  | noField (shown : String)
  /-- A field of an element type that is named without being described. -/
  | noFieldEntry
  /-- More names of fields than types of fields. -/
  | fieldCount
  /-- A name of a field that is no text. -/
  | noFieldName
  /-- A name that two fields have. -/
  | repeatedField
  /-- The length of something without elements. -/
  | noLength (typeName : String)
  /-- The length of an array without dimensions. -/
  | noLengthOfArray
  /-- Bytes expected of another kind, alone or in an array of an open size. -/
  | noBytes (isOpen : Bool) (typeName : String)
  /-- Several elements where one is expected. -/
  | sequence
  /-- A whole number beyond the doubles. -/
  | beyondDoubles
  /-- A text that is no number, as it is shown. -/
  | noNumeral (shown : String)
  /-- A text that is no complex number. -/
  | noComplexNumeral
  /-- Data of a kind that is no number. -/
  | noNumber (typeName : String)
  /-- Data of a kind that is no complex number. -/
  | noComplex (typeName : String)
  /-- A text that is no whole number, as it is shown. -/
  | noWholeNumeral (shown : String)
  /-- A text of more digits than whole numbers are read from. -/
  | tooLong (limit found : Nat)
  /-- Data of a kind that is no whole number. -/
  | noWhole (typeName : String)
  /-- A double that is no number, where a whole number is expected. -/
  | nanAsWhole
  /-- An infinity where a whole number is expected. -/
  | infinityAsWhole
  /-- A whole number that fits no word of 64 bits. -/
  | beyondWord
  /-- A whole number that fits no count of steps. -/
  | beyondCount
  /-- A whole number outside the range of a type. -/
  | beyondType (i : Int) (type : ElementType)
  /-- The truth value of an array without elements. -/
  | emptyTruth
  /-- The truth value of an array of several elements. -/
  | ambiguousTruth
  /-- A comparison of kinds that have no order. -/
  | unordered (sign left right : String)
  /-- An operation on elements of types that it is not made for. -/
  | noOperation (operation : String) (classNames : List String)
  /-- Steps that are made of no common one. -/
  | noCommonStep (left right : Calendar.Step)
  /-- A text that is no date. -/
  | noDate (text : String) (defect : Calendar.DateDefect)
  /-- A step that is none. -/
  | noStep (defect : Calendar.Step.Defect)
  /-- A time in no unit. -/
  | openTime
  /-- A count of no unit, where a time is expected. -/
  | openCount
  /-- Data that is no time, or no span of time. -/
  | noTime (kind : String)
  /-- A number of places after the point for what is no number. -/
  | noPlaces (typeName : String)
  /-- A number of places after the point for a text. -/
  | noPlacesForText (typeName : String)
  /-- A magnitude of what has none. -/
  | noMagnitude (typeName : String)
  /-- A text with characters beyond the plain ones, of which the first run starts at a position. -/
  | notPlain (position : Nat) (run : List Char)
  /-- A part looked for in what has no parts. -/
  | noParts (typeName : String)
  /-- Something other than a text looked for in a text. -/
  | noPart (typeName : String)
  /-- A dimension below zero. -/
  | negativeDimension
  /-- A dimension beyond the places that can be counted. -/
  | dimensionTooLarge
  /-- More elements than could be counted. -/
  | tooManyElements
  /-- Data of a kind that is no dimension. -/
  | noDimension (typeName : String)
  /-- A truth value among dimensions. -/
  | truthAsDimension
  /-- Something without elements where several are expected. -/
  | notIterable (typeName : String)
  /-- The elements of an array without dimensions. -/
  | noElements
  /-- A number expected of an array with dimensions. -/
  | noScalar
  /-- A sum of kinds that cannot be added. -/
  | noSum (left right : String)
  /-- A sequence and something of another kind, which cannot be joined. -/
  | noJoin (kind other : String)
  /-- A bound of a range that is no whole number. -/
  | noBound
  /-- An array other than a single whole number where a bound is expected. -/
  | noBoundArray
  /-- A text expected of another kind. -/
  | noText (typeName : String)
  /-- More dimensions than an array can have. -/
  | tooManyDimensions (limit found : Nat)
  /-- Dimensions of elements that go beyond those of an array. -/
  | rankBeyond (limit : Nat)

/-- The text about characters beyond the plain ones: a single one is shown, of several the first and
    the last position. -/
def notPlainMessage (position : Nat) (run : List Char) : String :=
  let what := match run with
    | [c] =>
      "character '" ++ String.ofList (Text.escapedCode c) ++ "' in position " ++ toString position
    | _ =>
      "characters in position " ++ toString position ++ "-"
        ++ toString (position + run.length - 1)
  "'ascii' codec can't encode " ++ what ++ ": ordinal not in range(128)"

/-- The text about an operation that is not made for some types. -/
def noOperationMessage (operation : String) (classNames : List String) : String :=
  let classes := classNames.map fun name => "<class 'numpy.dtypes." ++ name ++ "'>"
  let types := match classes with
    | [c] => c
    | cs => "(" ++ Datum.joined ", " cs ++ ")"
  "ufunc '" ++ operation ++ "' did not contain a loop with signature matching types " ++ types
    ++ " -> None"

/-- The text of an unreadable datum. -/
def Unreadable.message : Unreadable → String
  | .notArray defect => defect.message
  | .unknownType name => "data type " ++ Text.quoted name ++ " not understood"
  | .unknownFormat number format =>
    "format number " ++ toString number ++ " of \"" ++ format ++ "\" is not recognized"
  | .unequalMarks first second =>
    "inconsistent byte-order specification " ++ first ++ " and " ++ second
  | .misspeltRepeats misspelling => misspelling.message
  | .unfitRepeats excess => excess.message
  | .unexplained => "<built-in function array> returned NULL without setting an exception"
  | .noType shown => "Cannot interpret '" ++ shown ++ "' as a data type"
  | .noField shown => "Field elements must be 2- or 3-tuples, got '" ++ shown ++ "'"
  | .noFieldEntry => "entry not a 2- or 3- tuple"
  | .fieldCount =>
    "'names', 'formats', 'offsets', and 'titles' dict entries must have the same length"
  | .noFieldName => "field names must be strings"
  | .repeatedField => "name already used as a name or title"
  | .noLength t => "object of type '" ++ t ++ "' has no len()"
  | .noLengthOfArray => "len() of unsized object"
  | .noBytes isOpen t =>
    (if isOpen then "A" else "a") ++ " bytes-like object is required, not '" ++ t ++ "'"
  | .sequence => "setting an array element with a sequence."
  | .beyondDoubles => "int too large to convert to float"
  | .noNumeral shown => "could not convert string to float: " ++ shown
  | .noComplexNumeral => "complex() arg is a malformed string"
  | .noNumber t => "float() argument must be a string or a real number, not '" ++ t ++ "'"
  | .noComplex t => "must be real number, not " ++ t
  | .noWholeNumeral shown => "invalid literal for int() with base 10: " ++ shown
  | .tooLong limit found =>
    "Exceeds the limit (" ++ toString limit ++ " digits) for integer string conversion: value has "
      ++ toString found ++ " digits; use sys.set_int_max_str_digits() to increase the limit"
  | .noWhole t =>
    "int() argument must be a string, a bytes-like object or a real number, not '" ++ t ++ "'"
  | .nanAsWhole => "cannot convert float NaN to integer"
  | .infinityAsWhole => "cannot convert float infinity to integer"
  | .beyondWord => "Python int too large to convert to C long"
  | .beyondCount => "int too big to convert"
  | .beyondType i t => "Python integer " ++ toString i ++ " out of bounds for " ++ t.name
  | .emptyTruth =>
    "The truth value of an empty array is ambiguous. "
      ++ "Use `array.size > 0` to check that an array is not empty."
  | .ambiguousTruth =>
    "The truth value of an array with more than one element is ambiguous. Use a.any() or a.all()"
  | .unordered sign left right =>
    "'" ++ sign ++ "' not supported between instances of '" ++ left ++ "' and '" ++ right ++ "'"
  | .noOperation operation classNames => noOperationMessage operation classNames
  | .noCommonStep left right =>
    "Cannot get a common metadata divisor for Numpy datetime metadata " ++ left.text ++ " and "
      ++ right.text ++ " because they have incompatible nonlinear base time units."
  | .noDate text defect => defect.message text
  | .noStep defect => defect.message
  | .openTime => "Cannot create a NumPy datetime other than NaT with generic units"
  | .openCount => "Converting an integer to a NumPy datetime requires a specified unit"
  | .noTime kind => "Could not convert object to NumPy " ++ kind
  | .noPlaces t => "unsupported format string passed to " ++ t ++ ".__format__"
  | .noPlacesForText t => "Unknown format code 'f' for object of type '" ++ t ++ "'"
  | .noMagnitude t => "bad operand type for abs(): '" ++ t ++ "'"
  | .notPlain i run => notPlainMessage i run
  | .noParts t => "argument of type '" ++ t ++ "' is not iterable"
  | .noPart t => "'in <string>' requires string as left operand, not " ++ t
  | .negativeDimension => "negative dimensions are not allowed"
  | .dimensionTooLarge => "Maximum allowed dimension exceeded"
  | .tooManyElements =>
    "array is too big; `arr.size * arr.dtype.itemsize` is larger than the maximum possible size."
  | .noDimension t => "'" ++ t ++ "' object cannot be interpreted as an integer"
  | .truthAsDimension => "an integer is required"
  | .notIterable t => "'" ++ t ++ "' object is not iterable"
  | .noElements => "iteration over a 0-d array"
  | .noScalar => "only 0-dimensional arrays can be converted to Python scalars"
  | .noSum left right =>
    "unsupported operand type(s) for +: '" ++ left ++ "' and '" ++ right ++ "'"
  | .noJoin kind other =>
    "can only concatenate " ++ kind ++ " (not \"" ++ other ++ "\") to " ++ kind
  | .noBoundArray => "only integer scalar arrays can be converted to a scalar index"
  | .noBound => "slice indices must be integers or None or have an __index__ method"
  | .noText t => "string argument expected, got '" ++ t ++ "'"
  | .rankBeyond limit => "number of dimensions must be within [0, " ++ toString limit ++ "]"
  | .tooManyDimensions limit found =>
    "maximum supported dimension for an ndarray is currently " ++ toString limit ++ ", found "
      ++ toString found

end LinearSystems
