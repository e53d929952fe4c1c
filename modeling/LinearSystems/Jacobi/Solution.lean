import LinearSystems.Comparison
import LinearSystems.Jacobi.Iteration
import LinearSystems.Jacobi.System
import LinearSystems.Options
import LinearSystems.Result
import LinearSystems.Search
import LinearSystems.Summary
import LinearSystems.Tolerance

/-!
# Answers of the iteration

An iteration that uses up its allowed steps is not a failure: it answers with its last iterate and a
warning. On request the norm of `alpha` is compared with one, which is advice only and does not
change the iteration. The messages of a run tell the advice, if it was asked for, and how the
iteration ended.
-/

namespace LinearSystems.Jacobi

/-- The options of a run as they were given: when to stop, how many steps to allow, and whether the
    norm is to be compared. -/
structure Settings where
  epsilon : Datum
  maxIterations : Datum
  check : Datum

/-- The settings when nothing is chosen. -/
def Settings.standard : Settings where
  epsilon := .number (.real 1e-6)
  maxIterations := .number (.whole 1000)
  check := .bool false

/-- What settings ask of a run. A difference lies below the tolerance exactly if it lies below the
    number given for it, and the budget counts the steps that lie below the number given. -/
structure Plan where
  tolerance : Float
  budget : Nat
  check : Bool

/-- The tolerance that a datum stands for: a difference lies below the one exactly if it lies below
    the other. Doubles from zero on are ordered as their bits are. -/
def toleranceOf : Datum → Except Fault Float
  | .number x => .ok x.leastAbove
  | d => do
    let isBelow := fun x : Float => (Datum.number (.real x)).isBelow d
    let _ ← isBelow 0.0
    let holds := fun n => (isBelow (Float.ofBits (UInt64.ofNat n))).toOption.getD false
    return Float.ofBits (UInt64.ofNat (firstFailing holds 63 0))

/-- What settings ask for. They are read in the order in which a run needs them; the tolerance is
    not read if no step is allowed. -/
def Settings.plan (s : Settings) : Except Fault Plan := do
  let check ← s.check.truth
  let budget ← s.maxIterations.countBelow
  if budget = 0 then
    return { tolerance := 0.0, budget, check }
  return { tolerance := ← toleranceOf s.epsilon, budget, check }

/-- A budget of no steps is used up at once, and then the cap is shown. One that allows steps is
    shown after so many of them only, and a cap of too many digits allows more than any run makes. -/
def Plan.checkCap (p : Plan) (maxIterations : Datum) : Except Fault Unit :=
  if p.budget = 0 then Options.checkShown maxIterations else .ok ()

/-- What a run computes. -/
structure Params (n : Nat) where
  x : Vector Float n
  iterations : Nat
  converged : Bool
  finalDifference : Float
  alphaNorm : Option Float

/-- The difference that is shown when no step was made. -/
def noDifference : Float := 1.0 / 0.0

/-- Runs the iteration on a fixed-point form. -/
def FixedPoint.params {n : Nat} (F : FixedPoint Float n) (p : Plan) : Params n :=
  let run := iterate F p.tolerance p.budget
  { x := run.x
    iterations := run.iterations
    converged := run.converged
    finalDifference := run.lastDifference.getD noDifference
    alphaNorm := if p.check then some (infNorm F.alpha) else none }

namespace Params

variable {n : Nat}

/-- How the iteration ended. -/
def termination (p : Params n) : String :=
  if p.converged then "converged" else "max_iterations"

/-- Whether the norm of `alpha` is below one; nothing if it was not compared. -/
def conditionMet (p : Params n) : Option Bool :=
  p.alphaNorm.map fun q => Scalar.less q 1.0

/-- The advice on the norm of `alpha`. -/
def conditionMessage (q : Float) : String :=
  if Scalar.less q 1.0 then
    "Convergence condition satisfied: ||alpha|| = " ++ Decimal.general 6 q
  else
    "Convergence condition not satisfied: ||alpha|| = " ++ Decimal.general 6 q ++ " >= 1"

/-- How the iteration ended, as a message. -/
def endMessage (p : Params n) (maxIterations : Datum) : String :=
  if p.converged then "Iteration finished after " ++ toString p.iterations ++ " iterations"
  else "Maximum number of iterations reached (" ++ maxIterations.interpolated ++ ")"

/-- The messages of a run. -/
def messages (p : Params n) (maxIterations : Datum) : List String :=
  (p.alphaNorm.map conditionMessage).toList ++ [p.endMessage maxIterations]

/-- The messages that are warnings: an advice that is not met and an iteration that did not
    converge. -/
def warnings (p : Params n) (maxIterations : Datum) : List String :=
  ((p.alphaNorm.filter fun q => !Scalar.less q 1.0).map conditionMessage).toList
    ++ (if p.converged then [] else [p.endMessage maxIterations])

/-- The facts of a run. -/
def info (p : Params n) (s : Settings) : List (String × Datum) :=
  [("method", .text "jacobi"),
    ("n", .number (.whole n)),
    ("epsilon", s.epsilon),
    ("max_iterations", s.maxIterations),
    ("termination", .text p.termination),
    ("convergence_condition_checked", s.check),
    ("convergence_condition_met",
      match p.conditionMet with
      | none => .null
      | some met => .bool met),
    ("messages", .list ((p.messages s.maxIterations).map .text))]

end Params

/-- The name of the backend. -/
def backendName : String := "cpu_jacobi"

/-- Iterates a checked system; the settings are taken as they are. -/
def System.run (S : System) (s : Settings) : Except Fault (Result (Params S.n)) :=
  match toFixedPoint pivotThreshold S.matrix S.rhs with
  | .error d => .error (.smallDiagonal (d.index.val + 1) d.value pivotThreshold)
  | .ok F => do
    let plan ← s.plan
    let p := F.params plan
    plan.checkCap s.maxIterations
    return .ofRun p (p.info s) ["transform", "iterations"] backendName (p.warnings s.maxIterations)

/-- An iterated system, with the tolerance and the count of steps that it was allowed. The unknowns
    may be written to. -/
structure Solution where
  system : System
  epsilon : Float
  maxIterations : Nat
  result : Result (Params system.n)
  x : Vector Float system.n

/-- Options as a caller gives them. What is not given keeps its standard value. -/
structure Request where
  epsilon : Datum := Settings.standard.epsilon
  maxIterations : Datum := Settings.standard.maxIterations
  check : Datum := Settings.standard.check
  backend : Datum := Options.defaultBackend

/-- Iterates a checked system as a request asks: the tolerance has to be positive and the count at
    least zero. -/
def System.solveWith (S : System) (r : Request) : Except Fault Solution := do
  let epsilon ← Options.checkPositive "epsilon" r.epsilon
  let maxIterations ← Options.checkCount "max_iterations" r.maxIterations
  Options.checkBackend r.backend
  let check ← r.check.truth
  let result ← S.run {
    epsilon := .number (.real epsilon)
    maxIterations := .number (.whole maxIterations)
    check := .bool check }
  return { system := S, epsilon, maxIterations, result, x := result.params.x }

/-- Which system to iterate: a prepared one, or a matrix to prepare. -/
inductive Source where
  | prepared (S : System)
  | matrix (A : Datum)

/-- Iterates a prepared system, which brings its right-hand side with it, or the system of a matrix
    and a right-hand side. -/
def solve (source : Source) (b : Option Datum) (r : Request) : Except Fault Solution := do
  match source, Datum.given? b with
  | .prepared _, some _ => throw (.invalid .rightHandSideGiven)
  | .prepared S, none => S.solveWith r
  | .matrix _, none => throw (.invalid .rightHandSideMissing)
  | .matrix A, some b => (← System.ofParts A b).solveWith r

namespace Solution

/-- The payload of the run. -/
def params (S : Solution) : Params S.system.n :=
  S.result.params

/-- What `A x - b` is for the unknowns as they stand. -/
def residual (S : Solution) : Vector Float S.system.n :=
  Dense.residual S.system.matrix S.system.rhs S.x

/-- The largest magnitude in the residual. -/
def residualNorm (S : Solution) : Float :=
  Dense.maxAbs S.residual

/-- The messages of the run. -/
def messages (S : Solution) : List String :=
  S.params.messages (.number (.whole S.maxIterations))

/-- The notice that a run which did not converge gives beside its answer. -/
def notice? (S : Solution) : Option String :=
  if S.params.converged then none
  else
    some ("Jacobi iteration stopped at the iteration cap (" ++ toString S.maxIterations
      ++ ") without reaching epsilon=" ++ Decimal.general 6 S.epsilon
      ++ " (last difference: " ++ Decimal.scientific 2 S.params.finalDifference ++ ")")

/-- The summary, with the time if it is known. -/
def summary (S : Solution) (time : Option String) : String :=
  Summary.text {
    title := "Jacobi Iteration Results"
    facts := [
      "Unknowns: " ++ toString S.system.n,
      "Termination: " ++ S.params.termination,
      "Iterations: " ++ toString S.params.iterations,
      "Final max difference: " ++ Decimal.scientific 6 S.params.finalDifference]
      ++ (S.params.alphaNorm.map fun q => "||alpha||_inf: " ++ Decimal.general 6 q).toList
      ++ [Summary.residualFact S.residualNorm]
    first := 1
    x := S.x.toList
    backend := backendName
    time
    warnings := S.result.warnings.map Datum.shown }

/-- The solution in one line. -/
def brief (S : Solution) : String :=
  "JacobiSolution(n=" ++ toString S.system.n ++ ", termination="
    ++ Text.quoted S.params.termination ++ ", iterations=" ++ toString S.params.iterations ++ ")"

end Solution

end LinearSystems.Jacobi
