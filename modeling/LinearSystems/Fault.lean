import LinearSystems.Fault.Misuse
import LinearSystems.Fault.Unreadable

/-!
# Faults

Everything that can go wrong, by cause. A fault carries what its text needs and nothing else; the
texts are in `Fault.message`, the classes that a caller can tell apart in `Fault.faultClass`.

The faults that a caller of the solvers must expect are those of data, shape and arithmetic. The
remaining ones answer data that is taken as it comes, or a wrong use of a kernel, of a workspace or
of the console.
-/

namespace LinearSystems

/-- Data that is not acceptable. -/
inductive Invalid where
  /-- Nested lists that are no array. -/
  | notArray (name : String) (defect : ShapeDefect)
  /-- Elements that are neither numbers nor text. -/
  | objects (name : String)
  /-- Elements of another type than real numbers. -/
  | notNumeric (name elementType : String)
  /-- Entries that are not finite, with the count of those that are no number and of infinities. -/
  | notFinite (name : String) (nans infinities : Nat)
  /-- An option that has to be a real number. -/
  | notReal (name typeName : String)
  /-- A tolerance that has to be positive and finite. -/
  | notPositive (name : String) (value : Float)
  /-- An option that has to be a whole number. -/
  | notWhole (name typeName : String)
  /-- A count that has to be at least zero. -/
  | negative (name : String) (value : Int)
  /-- An entry outside the three diagonals. -/
  | outsideBand (row column : Nat) (value : Float)
  /-- A backend that does not exist. -/
  | unknownBackend (choice : Datum)
  /-- A right-hand side given beside a prepared system. -/
  | rightHandSideGiven
  /-- No right-hand side. -/
  | rightHandSideMissing
  /-- Further diagonals given beside a prepared system. -/
  | diagonalsGiven
  /-- A diagonal or the right-hand side is missing. -/
  | diagonalsMissing

/-- The text of unacceptable data. -/
def Invalid.message : Invalid → String
  | .notArray name defect => name ++ ": cannot convert to array: " ++ defect.message
  | .objects name =>
    name ++ ": converted to object dtype, indicating ragged rows or non-numeric data"
  | .notNumeric name t => name ++ ": non-numeric dtype " ++ t ++ ", expected real numeric data"
  | .notFinite name nans infinities =>
    name ++ ": contains non-finite values (" ++ toString nans ++ " NaN, " ++ toString infinities
      ++ " Inf)"
  | .notReal name t => name ++ ": expected a real number, got " ++ t
  | .notPositive name x => name ++ ": must be positive and finite, got " ++ Decimal.shortest x
  | .notWhole name t => name ++ ": expected an integer, got " ++ t
  | .negative name i => name ++ ": must be non-negative, got " ++ toString i
  | .outsideBand i j x =>
    "A: not tridiagonal, A[" ++ toString i ++ "," ++ toString j ++ "] = " ++ Decimal.general 6 x
      ++ " lies outside the band"
  | .unknownBackend choice => "Unknown backend: " ++ choice.literal ++ ". Use 'cpu'."
  | .rightHandSideGiven => "b must be None when A is a JacobiDesign"
  | .rightHandSideMissing => "b is required"
  | .diagonalsGiven => "d, e and b must be omitted when passing a TridiagonalDesign"
  | .diagonalsMissing => "c, d, e and b are all required"

/-- Arrays whose shapes do not fit. -/
inductive Mismatch where
  /-- Another count of dimensions than required. -/
  | rank (name : String) (required : Datum) (shape : List Nat)
  /-- A system without equations. -/
  | empty (name : String)
  /-- A matrix that is not square. -/
  | notSquare (name : String) (shape : List Nat)
  /-- A matrix that does not have one more column than rows. -/
  | notAugmented (name : String) (shape : List Nat)
  /-- Arrays of different lengths. -/
  | lengths (named : List (String × Nat))

/-- The text of shapes that do not fit. -/
def Mismatch.message : Mismatch → String
  | .rank name required shape =>
    name ++ ": expected " ++ required.interpolated ++ "D array, got " ++ toString shape.length
      ++ "D with shape " ++ shapeText shape
  | .empty name => name ++ ": system must have at least one equation, got 0"
  | .notSquare name shape => name ++ ": expected square matrix, got shape " ++ shapeText shape
  | .notAugmented name shape =>
    name ++ ": expected augmented matrix of shape (n, n+1), got " ++ shapeText shape
  | .lengths named =>
    "Inconsistent lengths: "
      ++ Datum.joined ", " (named.map fun (name, n) => name ++ "=" ++ toString n)

/-- A divisor of a direct solver that is too small. Rows and steps are counted from zero here. -/
inductive SmallDivisor where
  /-- The pivot that row `row` has on the diagonal. -/
  | diagonalPivot (row : Nat)
  /-- The largest pivot left at step `step`. -/
  | largestPivot (step : Nat)
  /-- What row `row` of a tridiagonal sweep divides by. -/
  | sweep (row : Nat)

namespace SmallDivisor

/-- The step as it is reported: elimination counts from one, the sweep from zero. -/
def step : SmallDivisor → Nat
  | .diagonalPivot row => row + 1
  | .largestPivot step => step + 1
  | .sweep row => row

/-- The matrix in which the divisor was found. -/
def matrixName : SmallDivisor → String
  | .diagonalPivot _ => "augmented_matrix"
  | .largestPivot _ => "augmented_matrix"
  | .sweep _ => "tridiagonal"

/-- What was too small, and where. -/
def cause : SmallDivisor → String
  | .diagonalPivot row => "Zero or too small pivot in row " ++ toString (row + 1)
  | .largestPivot step =>
    "Zero or too small pivot at step " ++ toString (step + 1) ++ " after complete pivoting"
  | .sweep 0 => "Zero or too small main-diagonal element d[0]"
  | .sweep row => "Zero or too small denominator at step " ++ toString row

end SmallDivisor

/-- The comparison that a divisor failed, as text. The bars hold the value with its sign. -/
def belowText (value threshold : Float) : String :=
  " (|" ++ Decimal.general 6 value ++ "| < " ++ Decimal.general 6 threshold ++ ")"

/-- A line of input that cannot be understood. -/
inductive BadInput where
  | notNumber (given : Datum)
  | notWhole (given : Datum)
  | sizeTooSmall (n : Int)
  | negativeCount (n : Int)
  | tokenCount (expected : Datum) (found : Nat)
  | pivotingChoice (k : Int)

/-- The text of a line that cannot be understood. -/
def BadInput.message : BadInput → String
  | .notNumber d => "not a number: " ++ d.literal
  | .notWhole d => "not an integer: " ++ d.literal
  | .sizeTooSmall n => "system size must be at least 1, got " ++ toString n
  | .negativeCount n => "must be non-negative, got " ++ toString n
  | .tokenCount expected found =>
    "expected " ++ expected.interpolated ++ " numbers, got " ++ toString found
  | .pivotingChoice k => "pivoting choice must be 1 or 2, got " ++ toString k

/-- Everything that can go wrong. -/
inductive Fault where
  | invalid (cause : Invalid)
  | mismatch (cause : Mismatch)
  | smallDivisor (cause : SmallDivisor) (value threshold : Float)
  /-- A diagonal entry too small for the fixed-point form; the index counts from one. -/
  | smallDiagonal (index : Nat) (value threshold : Float)
  | badInput (cause : BadInput)
  | endOfInput
  | unreadable (cause : Unreadable)
  | misuse (cause : Misuse)

/-- The text of a fault. -/
def Fault.message : Fault → String
  | .invalid cause => cause.message
  | .mismatch cause => cause.message
  | .smallDivisor cause value threshold => cause.cause ++ belowText value threshold
  | .smallDiagonal index value threshold =>
    "Diagonal element A[" ++ toString index ++ "," ++ toString index
      ++ "] is zero or too small" ++ belowText value threshold
  | .badInput cause => cause.message
  | .endOfInput => "unexpected end of input"
  | .unreadable cause => cause.message
  | .misuse cause => cause.message

end LinearSystems
