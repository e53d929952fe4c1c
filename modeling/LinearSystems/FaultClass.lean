import LinearSystems.Fault

/-!
# Classes of faults

The classes that a caller can tell faults apart by. The classes of the solvers form a tree under
`any`, so that a caller may handle one class and all below it at once; the remaining classes stand
alone. A class may name diagnostics that its faults carry.
-/

namespace LinearSystems

/-- The classes of faults. -/
inductive FaultClass where
  /-- Every fault that a solver raises on purpose. -/
  | any
  | validation
  | dimensions
  | numerical
  | singular
  | zeroDiagonal
  /-- A line of input that cannot be understood. -/
  | badInput
  | endOfInput
  | index
  | axis
  | value
  | type
  /-- An operation on elements that it is not made for. -/
  | operation
  | overflow
  | storage
  | order
  /-- A text that cannot be written with plain characters. -/
  | encoding
  /-- A text that does not follow its grammar. -/
  | grammar
  /-- A failure that gives no reason. -/
  | unexplained
  | lookup
  | member
  | frozen
  deriving DecidableEq, Repr

namespace FaultClass

/-- The class directly above a class. -/
def parent? : FaultClass → Option FaultClass
  | .validation => some .any
  | .dimensions => some .validation
  | .numerical => some .any
  | .singular => some .numerical
  | .zeroDiagonal => some .numerical
  | _ => none

/-- The class and all classes above it, from the class itself upwards. No class has more than two
    classes above it. -/
def lineage (c : FaultClass) : List FaultClass :=
  match c.parent? with
  | none => [c]
  | some p =>
    match p.parent? with
    | none => [c, p]
    | some q => [c, p, q]

/-- The diagnostics that the faults of a class carry. -/
def diagnostics : FaultClass → List String
  | .singular => ["step", "value", "threshold", "matrix_name"]
  | .zeroDiagonal => ["index", "value", "threshold"]
  | _ => []

/-- The arguments that a new fault takes by place: itself and its text. -/
def placed : List String := ["self", "message"]

/-- The action that makes a fault. -/
def creation : String := "__init__"

/-- What is wrong with a named argument of a new fault of a class, which has diagnostics. -/
def argumentDefect? (c : FaultClass) (owner argument : String) : Option Misuse :=
  if placed.contains argument then some (.repeatedArgument owner creation argument)
  else if c.diagnostics.contains argument then none
  else some (.unexpectedArgument owner creation argument)

/-- The diagnostics of a new fault of a class, where what is not given is nothing. A class without
    diagnostics takes no named arguments, the others take only their own. -/
def withDiagnostics (c : FaultClass) (owner : String) (given : List (String × Datum)) :
    Except Fault (List (String × Datum)) :=
  if c.diagnostics.isEmpty then
    if given.isEmpty then .ok [] else .error (.misuse (.noNamedArguments owner))
  else
    match given.findSome? fun given => c.argumentDefect? owner given.1 with
    | some cause => .error (.misuse cause)
    | none => .ok (c.diagnostics.map fun key => (key, (given.lookup key).getD .null))

end FaultClass

/-- The class of a wrong use. -/
def Misuse.faultClass : Misuse → FaultClass
  | .outOfRange .. => .index
  | .tooManyIndices .. => .index
  | .tooManyPlaces => .index
  | .tooManyAxes .. => .index
  | .noDimension => .index
  | .fewDimensions _ => .value
  | .manyDimensions => .value
  | .nameCount .. => .value
  | .emptySearch => .value
  | .emptyMaximum => .value
  | .shapeOfValue .. => .value
  | .choiceLength .. => .index
  | .choiceCount .. => .value
  | .choiceRank _ => .value
  | .unmatchedPlaces _ => .index
  | .unfitResult .. => .value
  | .innerLength .. => .value
  | .unmatched _ => .value
  | .noAxis .. => .axis
  | .noDiagonal => .value
  | .unequalAxes => .value
  | .noPlace => .index
  | .noPlaces => .index
  | .tooManyDigits _ => .value
  | .beyondCounting => .overflow
  | .beyondStorage => .storage
  | .unknownPivoting _ => .value
  | .stopBeforeStart => .order
  | .resultBeforeStop => .order
  | .raised _ => .value
  | .readOnly => .value
  | .notWritable _ => .type
  | .unknownKey _ => .lookup
  | .noKey _ => .type
  | .noMember .. => .member
  | .frozen _ => .frozen
  | .computed .. => .member
  | .unexpectedArgument .. => .type
  | .repeatedArgument .. => .type
  | .noNamedArguments _ => .type
  | .noArguments _ => .type
  | .missingArguments .. => .type
  | .surplusArguments .. => .type
  | .noModuleMember .. => .member
  | .notCallable _ => .type
  | .notCopyable => .type
  | .noClass _ => .type
  | .noFields _ => .type
  | .notAssignable .. => .member
  | .noMemberName _ => .type
  | .listPlace _ => .type
  | .textPlace _ => .type
  | .noEntries _ => .type

/-- The class of a defect of a step. -/
def Calendar.Step.Defect.faultClass : Calendar.Step.Defect → FaultClass
  | .form .. => .type
  | .unknownUnit _ => .type
  | .uneven .. => .value
  | .openPart => .value

/-- The class of an unreadable datum. -/
def Unreadable.faultClass : Unreadable → FaultClass
  | .notArray _ => .value
  | .unknownType _ => .type
  | .unknownFormat .. => .value
  | .unequalMarks .. => .value
  | .misspeltRepeats _ => .grammar
  | .unfitRepeats _ => .value
  | .unexplained => .unexplained
  | .noType _ => .type
  | .noField _ => .type
  | .noFieldEntry => .value
  | .fieldCount => .value
  | .noFieldName => .value
  | .repeatedField => .value
  | .noLength _ => .type
  | .noLengthOfArray => .type
  | .noBytes .. => .type
  | .sequence => .value
  | .beyondDoubles => .overflow
  | .noNumeral _ => .value
  | .noComplexNumeral => .value
  | .noNumber _ => .type
  | .noComplex _ => .type
  | .noWholeNumeral _ => .value
  | .tooLong .. => .value
  | .noWhole _ => .type
  | .nanAsWhole => .value
  | .infinityAsWhole => .overflow
  | .beyondWord => .overflow
  | .beyondCount => .overflow
  | .beyondType .. => .overflow
  | .emptyTruth => .value
  | .ambiguousTruth => .value
  | .unordered .. => .type
  | .noOperation .. => .operation
  | .noCommonStep .. => .type
  | .noDate .. => .value
  | .noStep defect => defect.faultClass
  | .openTime => .value
  | .openCount => .value
  | .noTime _ => .value
  | .noPlaces _ => .type
  | .noPlacesForText _ => .value
  | .noMagnitude _ => .type
  | .notPlain .. => .encoding
  | .noParts _ => .type
  | .noPart _ => .type
  | .negativeDimension => .value
  | .dimensionTooLarge => .value
  | .tooManyElements => .value
  | .noDimension _ => .type
  | .truthAsDimension => .type
  | .notIterable _ => .type
  | .noElements => .type
  | .noScalar => .type
  | .noSum .. => .type
  | .noJoin .. => .type
  | .noBound => .type
  | .noBoundArray => .type
  | .noText _ => .type
  | .rankBeyond _ => .value
  | .tooManyDimensions .. => .value

namespace Fault

/-- The class of a fault. -/
def faultClass : Fault → FaultClass
  | .invalid _ => .validation
  | .mismatch _ => .dimensions
  | .smallDivisor .. => .singular
  | .smallDiagonal .. => .zeroDiagonal
  | .badInput _ => .badInput
  | .endOfInput => .endOfInput
  | .unreadable cause => cause.faultClass
  | .misuse cause => cause.faultClass

/-- Whether a solver raises the fault on purpose. -/
def isSolverFault (f : Fault) : Bool :=
  f.faultClass.lineage.contains .any

/-- The diagnostics of a fault, in the order of its class. -/
def diagnostics : Fault → List (String × Datum)
  | .smallDivisor cause v threshold =>
    [("step", .number (.whole cause.step)), ("value", .number (.real v)),
      ("threshold", .number (.real threshold)), ("matrix_name", .text cause.matrixName)]
  | .smallDiagonal i v threshold =>
    [("index", .number (.whole i)), ("value", .number (.real v)),
      ("threshold", .number (.real threshold))]
  | _ => []

end Fault

end LinearSystems
