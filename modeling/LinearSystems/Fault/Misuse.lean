import LinearSystems.Datum

/-!
# Wrong use

What goes wrong when a kernel, a workspace, a stopwatch or the console is used in a way that it is
not made for: places that do not exist, steps in the wrong order, names that nothing is stored
under, members that are missing, and arguments that are not taken.
-/

namespace LinearSystems

/-- A wrong use of a kernel, of a session or of a stopwatch. -/
inductive Misuse where
  /-- A place beyond the end of an axis of the given size. -/
  | outOfRange (index : Int) (axis size : Nat)
  /-- More places than the array has dimensions. -/
  | tooManyIndices (rank given : Nat)
  /-- More places than are taken at once. -/
  | tooManyPlaces
  /-- More dimensions of what is selected than an array can have. -/
  | tooManyAxes (limit found : Nat)
  /-- A dimension asked of a single number. -/
  | noDimension
  /-- Two dimensions asked of an array that has fewer. -/
  | fewDimensions (rank : Nat)
  /-- Two dimensions asked of an array that has more. -/
  | manyDimensions
  /-- As many names as arrays are required. -/
  | nameCount (arrays names : Nat)
  /-- A largest entry asked of an empty block. -/
  | emptySearch
  /-- A largest entry asked of an empty array. -/
  | emptyMaximum
  /-- A value of a shape that does not fit the places it is written to. -/
  | shapeOfValue (found required : List Nat)
  /-- A choice along an axis of another length. -/
  | choiceLength (axis size found : Nat)
  /-- Another count of values than of chosen places. -/
  | choiceCount (values places : Nat)
  /-- Values in more than one dimension for chosen places. -/
  | choiceRank (rank : Nat)
  /-- Lists of places whose shapes do not go together. -/
  | unmatchedPlaces (shapes : List (List Nat))
  /-- A result that does not fit the places it is stored in. -/
  | unfitResult (places result : List Nat)
  /-- Two arrays whose inner dimensions differ in a product. -/
  | innerLength (expected found : Nat)
  /-- Arrays of shapes that cannot be taken entry by entry. -/
  | unmatched (shapes : List (List Nat))
  /-- An axis that an array does not have. -/
  | noAxis (axis rank : Nat)
  /-- A diagonal asked of an array of another count of dimensions than two. -/
  | noDiagonal
  /-- A diagonal asked of an array of several axes that differ in length. -/
  | unequalAxes
  /-- A place that is no whole number. -/
  | noPlace
  /-- A list of places that are no whole numbers. -/
  | noPlaces
  /-- A whole number of more digits than numbers are written with. -/
  | tooManyDigits (limit : Nat)
  /-- A size that no place could be counted up to. -/
  | beyondCounting
  /-- A size that there is no storage for. -/
  | beyondStorage
  /-- A way of pivoting that does not exist. -/
  | unknownPivoting (choice : Datum)
  /-- A stopwatch stopped before it was started. -/
  | stopBeforeStart
  /-- A stopwatch read before it was stopped. -/
  | resultBeforeStop
  /-- A failure that the steps of a section raise themselves. -/
  | raised (message : String)
  /-- A write to an array that belongs to a prepared system. -/
  | readOnly
  /-- A write to something that takes no entries. -/
  | notWritable (typeName : String)
  /-- A key that nothing is stored under. -/
  | unknownKey (key : Datum)
  /-- A look-up by something that is no name. -/
  | noKey (typeName : String)
  /-- A member that an object does not have. -/
  | noMember (owner member : String)
  /-- An assignment to a field of something that does not change. -/
  | frozen (field : String)
  /-- An assignment to a field that is computed. -/
  | computed (owner field : String)
  /-- A named argument that is not taken. -/
  | unexpectedArgument (owner action argument : String)
  /-- A named argument that repeats one given by place. -/
  | repeatedArgument (owner action argument : String)
  /-- Named arguments where none are taken. -/
  | noNamedArguments (owner : String)
  /-- Arguments where none are taken. -/
  | noArguments (owner : String)
  /-- Arguments that are missing. -/
  | missingArguments (action : String) (names : List String)
  /-- More arguments than are taken. -/
  | surplusArguments (action : String) (fewest most given : Nat)
  /-- A member that a module does not have. -/
  | noModuleMember (module member : String)
  /-- Something called that is no action. -/
  | notCallable (typeName : String)
  /-- A copy asked of what is made of no fields. -/
  | notCopyable
  /-- A class expected of another kind. -/
  | noClass (typeName : String)
  /-- A record of fields expected of another kind. -/
  | noFields (typeName : String)
  /-- A part of an object that cannot be assigned. -/
  | notAssignable (owner member : String)
  /-- A member looked up by something that is no name. -/
  | noMemberName (typeName : String)
  /-- A list asked for something other than one place. -/
  | listPlace (typeName : String)
  /-- A text asked for something other than one place. -/
  | textPlace (typeName : String)
  /-- An entry asked of something that has none. -/
  | noEntries (typeName : String)

/-- Names in quotes as they are counted off. -/
def listed : List String → String
  | [] => ""
  | [a] => a
  | [a, b] => a ++ " and " ++ b
  | names => Datum.joined ", " names.dropLast ++ ", and " ++ names.getLastD ""

/-- The text about missing arguments. -/
def missingMessage (action : String) (names : List String) : String :=
  action ++ "() missing " ++ toString names.length ++ " required positional argument"
    ++ (if names.length = 1 then "" else "s") ++ ": "
    ++ listed (names.map fun name => "'" ++ name ++ "'")

/-- The text of a wrong use. -/
def Misuse.message : Misuse → String
  | .outOfRange i axis size =>
    "index " ++ toString i ++ " is out of bounds for axis " ++ toString axis ++ " with size "
      ++ toString size
  | .tooManyIndices rank given =>
    "too many indices for array: array is " ++ toString rank ++ "-dimensional, but "
      ++ toString given ++ " were indexed"
  | .tooManyPlaces => "too many indices for array"
  | .tooManyAxes limit found =>
    "number of dimensions must be within [0, " ++ toString limit
      ++ "], indexing result would have " ++ toString found
  | .noDimension => "tuple index out of range"
  | .fewDimensions rank =>
    "not enough values to unpack (expected 2, got " ++ toString rank ++ ")"
  | .manyDimensions => "too many values to unpack (expected 2)"
  | .nameCount arrays names =>
    "Number of arrays (" ++ toString arrays ++ ") must match number of names (" ++ toString names
      ++ ")"
  | .emptySearch => "attempt to get argmax of an empty sequence"
  | .emptyMaximum =>
    "zero-size array to reduction operation maximum which has no identity"
  | .shapeOfValue found required =>
    "shape mismatch: value array of shape " ++ narrowShapeText found
      ++ " could not be broadcast to indexing result of shape " ++ narrowShapeText required
  | .choiceLength axis size found =>
    "boolean index did not match indexed array along axis " ++ toString axis ++ "; size of axis is "
      ++ toString size ++ " but size of corresponding boolean axis is " ++ toString found
  | .choiceCount values places =>
    "NumPy boolean array indexing assignment cannot assign " ++ toString values
      ++ " input values to the " ++ toString places ++ " output values where the mask is true"
  | .choiceRank rank =>
    "NumPy boolean array indexing assignment requires a 0 or 1-dimensional input, input has "
      ++ toString rank ++ " dimensions"
  | .unmatchedPlaces shapes =>
    "shape mismatch: indexing arrays could not be broadcast together with shapes "
      ++ Datum.joined "" (shapes.map fun shape => narrowShapeText shape ++ " ")
  | .unfitResult places result =>
    "non-broadcastable output operand with shape " ++ narrowShapeText places
      ++ " doesn't match the broadcast shape " ++ narrowShapeText result
  | .innerLength expected found =>
    "matmul: Input operand 1 has a mismatch in its core dimension 0, with gufunc signature "
      ++ "(n?,k),(k,m?)->(n?,m?) (size " ++ toString found ++ " is different from "
      ++ toString expected ++ ")"
  | .unmatched shapes =>
    "operands could not be broadcast together with shapes "
      ++ Datum.joined "" (shapes.map fun shape => narrowShapeText shape ++ " ")
  | .noAxis axis rank =>
    "axis " ++ toString axis ++ " is out of bounds for array of dimension " ++ toString rank
  | .noDiagonal => "Input must be 1- or 2-d."
  | .unequalAxes => "All dimensions of input must be of equal length"
  | .noPlace =>
    "only integers, slices (`:`), ellipsis (`...`), numpy.newaxis (`None`) and integer or boolean "
      ++ "arrays are valid indices"
  | .noPlaces => "arrays used as indices must be of integer (or boolean) type"
  | .tooManyDigits limit =>
    "Exceeds the limit (" ++ toString limit ++ " digits) for integer string conversion; "
      ++ "use sys.set_int_max_str_digits() to increase the limit"
  | .beyondCounting => "cannot fit 'int' into an index-sized integer"
  | .beyondStorage => ""
  | .unknownPivoting choice => "Unknown pivoting strategy: " ++ choice.literal
  | .stopBeforeStart => "Timer.stop() called before start()"
  | .resultBeforeStop => "Timer.result() called before stop()"
  | .raised message => message
  | .readOnly => "assignment destination is read-only"
  | .notWritable t => "'" ++ t ++ "' object does not support item assignment"
  | .unknownKey key => key.literal
  | .noKey t => "unhashable type: '" ++ t ++ "'"
  | .noMember owner member =>
    "'" ++ owner ++ "' object has no attribute '" ++ member ++ "'"
  | .frozen field => "cannot assign to field " ++ Text.quoted field
  | .computed owner field =>
    "property '" ++ field ++ "' of '" ++ owner ++ "' object has no setter"
  | .unexpectedArgument owner action argument =>
    owner ++ "." ++ action ++ "() got an unexpected keyword argument '" ++ argument ++ "'"
  | .repeatedArgument owner action argument =>
    owner ++ "." ++ action ++ "() got multiple values for argument '" ++ argument ++ "'"
  | .noNamedArguments owner => owner ++ "() takes no keyword arguments"
  | .noArguments owner => owner ++ "() takes no arguments"
  | .missingArguments action names => missingMessage action names
  | .surplusArguments action fewest most given =>
    action ++ "() takes " ++ (if fewest = most then "" else "from " ++ toString fewest ++ " to ")
      ++ toString most ++ " positional argument" ++ (if most = 1 then "" else "s") ++ " but "
      ++ toString given ++ (if given = 1 then " was given" else " were given")
  | .noModuleMember module member =>
    "module '" ++ module ++ "' has no attribute '" ++ member ++ "'"
  | .notCallable t => "'" ++ t ++ "' object is not callable"
  | .notCopyable => "replace() should be called on dataclass instances"
  | .noClass t => "__class__ must be set to a class, not '" ++ t ++ "' object"
  | .noFields t => "__dict__ must be set to a dictionary, not a '" ++ t ++ "'"
  | .notAssignable owner member =>
    "attribute '" ++ member ++ "' of '" ++ owner ++ "' objects is not writable"
  | .noMemberName t => "attribute name must be string, not '" ++ t ++ "'"
  | .textPlace t => "string indices must be integers, not '" ++ t ++ "'"
  | .noEntries t => "'" ++ t ++ "' object is not subscriptable"
  | .listPlace t => "list indices must be integers or slices, not " ++ t

end LinearSystems
