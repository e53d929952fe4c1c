import LinearSystems.Gauss.Solution
import LinearSystems.Jacobi.Solution
import LinearSystems.Selection.Assignment
import LinearSystems.Tridiagonal.Solution
import LinearSystems.Workspace.Member

/-!
# Solutions of all kinds

A solution of one of the three kinds, with the members that it shows and where it takes them from.
Its arrays may be written to, and later answers about it show the writes: the residual of an
elimination is kept once it has been asked for, the others follow the unknowns as they stand.
-/

namespace LinearSystems

/-- A solution of one of the three kinds. -/
inductive Solution where
  | gauss (S : Gauss.Solution)
  | jacobi (S : Jacobi.Solution)
  | tridiagonal (S : Tridiagonal.Solution)

/-- Where a solution takes a member from: a part of what was computed, a part of the system, the
    residual, or the largest magnitude in it. -/
inductive MemberSource where
  | result (part : String)
  | system (part : String)
  | residual
  | residualNorm
  deriving DecidableEq, Repr

namespace Solution

/-- What a solution is called where it lacks a member. -/
def typeName : Solution → String
  | .gauss _ => "GaussSolution"
  | .jacobi _ => "JacobiSolution"
  | .tridiagonal _ => "TridiagonalSolution"

/-- What the system of a solution is called. -/
def systemTypeName : Solution → String
  | .gauss _ => "GaussDesign"
  | .jacobi _ => "JacobiDesign"
  | .tridiagonal _ => "TridiagonalDesign"

/-- A member that a solution lacks. -/
def lacks (S : Solution) (member : String) : Fault :=
  .misuse (.noMember S.typeName member)

/-- The unknowns as they stand. -/
def x : Solution → List Float
  | .gauss S => S.x.toList
  | .jacobi S => S.x.toList
  | .tridiagonal S => S.params.x.toList

/-- The residual as it is shown now. -/
def residual : Solution → List Float
  | .gauss S => S.residual.toList
  | .jacobi S => S.residual.toList
  | .tridiagonal S => S.residual.toList

/-- The largest magnitude in the residual as it is shown now. -/
def residualNorm : Solution → Float
  | .gauss S => S.residualNorm
  | .jacobi S => S.residualNorm
  | .tridiagonal S => S.residualNorm

/-- The solution once its residual has been asked for: elimination keeps it, the others do not. -/
def keepResidual : Solution → Solution
  | .gauss S => .gauss S.keepResidual
  | S => S

/-- The summary with a residual of the given size, and with the time if it is known. Only an
    elimination can have another residual than that of its unknowns. -/
def summaryWith (S : Solution) (norm : Float) (time : Option String) : String :=
  match S with
  | .gauss S => S.summaryWith norm time
  | .jacobi S => S.summary time
  | .tridiagonal S => S.summary time

/-- The solution in one line, with a residual of the given size. -/
def briefWith (S : Solution) (norm : Float) : String :=
  match S with
  | .gauss S => S.briefWith norm
  | .jacobi S => S.brief
  | .tridiagonal S => S.brief

/-- Whether some warning holds a datum. -/
def holdsWarning (S : Solution) (part : Datum) : Except Fault Bool :=
  match S with
  | .gauss S => S.result.hasWarning part
  | .jacobi S => S.result.hasWarning part
  | .tridiagonal S => S.result.hasWarning part

/-- The part of what was computed that holds the numbers. -/
def payload : String := "params"

/-- The part of what was computed that holds the facts. -/
def facts : String := "info"

/-- The member that shows the residual. -/
def residualMember : String := "residual"

/-- The members that all solutions show. -/
def sharedMembers : List (String × Member × MemberSource) :=
  [("x", .array, .result payload), (residualMember, .array, .residual),
    ("residual_norm", .plain "float", .residualNorm), (facts, .record, .result facts),
    ("timing", .record, .result "timing"), ("backend_name", .plain "str", .result "backend_name"),
    ("warnings", .plain "tuple", .result "warnings")]

/-- The members that a solution shows beside the shared ones. -/
def ownMembers : Solution → List (String × Member × MemberSource)
  | .gauss S =>
    [("pivots", .plain "tuple", .result payload),
      ("column_permutation", Member.array.orAbsent S.columns, .result payload),
      ("pivoting", .plain "str", .result facts), ("n", .plain "int", .system "n")]
  | .jacobi S =>
    [("iterations", .plain "int", .result payload), ("converged", .plain "bool", .result payload),
      ("termination", .plain "str", .result facts),
      ("final_difference", .plain "float", .result payload),
      ("alpha_norm", (Member.plain "float").orAbsent S.params.alphaNorm, .result payload),
      ("convergence_condition_met", (Member.plain "bool").orAbsent S.params.conditionMet,
        .result facts),
      ("messages", .plain "tuple", .result facts)]
  | .tridiagonal _ =>
    [("alpha", .array, .result payload), ("beta", .array, .result payload)]

/-- The members that a solution shows. -/
def members (S : Solution) : List (String × Member × MemberSource) :=
  sharedMembers ++ S.ownMembers

/-- The name of what a solution does. -/
def action : String := "summary"

/-- The part of its system that the residual of a solution is taken from first. -/
def residualPart : Solution → String
  | .tridiagonal _ => "d"
  | _ => "A"

/-- Assigns to a part of an array of the solution. A residual that is not kept takes the value and
    loses it. -/
def assignArray (S : Solution) (array : String) (places : List Place) (value : Datum) :
    Solution × Except Fault Unit :=
  match S, array with
  | .gauss G, "x" =>
    let (x, outcome) := assignVector Datum.double G.x places value
    (.gauss { G with x }, outcome)
  | .gauss G, "residual" =>
    let (r, outcome) := assignVector Datum.double G.residual places value
    (.gauss { G with kept := some r }, outcome)
  | .gauss G, _ =>
    match G.columns with
    | some columns =>
      let (columns, outcome) := assignVector Datum.whole columns places value
      (.gauss { G with columns := some columns }, outcome)
    | none => (S, .ok ())
  | .jacobi J, "x" =>
    let (x, outcome) := assignVector Datum.double J.x places value
    (.jacobi { J with x }, outcome)
  | .jacobi J, _ => (S, (assignVector Datum.double J.residual places value).2)
  | .tridiagonal T, "x" =>
    let (x, outcome) := assignVector Datum.double T.params.x places value
    (.tridiagonal { T with params := { T.params with x } }, outcome)
  | .tridiagonal T, "alpha" =>
    let (alpha, outcome) := assignVector Datum.double T.params.alpha places value
    (.tridiagonal { T with params := { T.params with alpha } }, outcome)
  | .tridiagonal T, "beta" =>
    let (beta, outcome) := assignVector Datum.double T.params.beta places value
    (.tridiagonal { T with params := { T.params with beta } }, outcome)
  | .tridiagonal T, _ => (S, (assignVector Datum.double T.residual places value).2)

/-- What goes wrong when a solution is solved as if it were a system: it is no matrix to eliminate,
    and it comes without a right-hand side. -/
def asSystem : Solution → Fault
  | .gauss _ => .invalid (.objects Gauss.System.augmentedName)
  | .jacobi _ => .invalid .rightHandSideMissing
  | .tridiagonal _ => .invalid .diagonalsMissing

/-- What a solution lacks to show the state of a system. -/
def asState (S : Solution) : Fault :=
  match S with
  | .gauss _ => S.lacks "augmented"
  | _ => S.lacks "n"

end Solution

end LinearSystems
