import LinearSystems.Options
import LinearSystems.Result
import LinearSystems.Summary
import LinearSystems.Tolerance
import LinearSystems.Tridiagonal.System

/-!
# Solutions of tridiagonal systems

A solution shows its unknowns and the coefficients of the sweep, all of which may be written to. Its
residual follows the unknowns as they stand.
-/

namespace LinearSystems.Tridiagonal

/-- What a run computes: the unknowns and the coefficients of the sweep. -/
structure Params (n : Nat) where
  x : Vector Float n
  alpha : Vector Float n
  beta : Vector Float n

/-- The name of the backend. -/
def backendName : String := "cpu_thomas"

/-- Solves a checked system. -/
def System.run (S : System) : Except Fault (Result (Params S.n)) :=
  match S.band.sweep pivotThreshold with
  | .error d => .error (.smallDivisor (.sweep d.row) d.value pivotThreshold)
  | .ok sweep =>
    .ok (.ofRun { x := sweep.backSubstitute, alpha := sweep.alpha, beta := sweep.beta }
      [("method", .text "thomas"), ("n", .number (.whole S.n))]
      ["forward_sweep", "back_substitution"] backendName [])

/-- A solved tridiagonal system. -/
structure Solution where
  system : System
  result : Result (Params system.n)
  params : Params system.n

/-- Solves a checked system with the chosen backend. -/
def System.solveWith (S : System) (backend : Datum) : Except Fault Solution := do
  Options.checkBackend backend
  let result ← S.run
  return { system := S, result, params := result.params }

/-- Which system to solve: a prepared one, or the diagonal below the main one to begin with. -/
inductive Source where
  | prepared (S : System)
  | lower (c : Datum)

/-- Solves a prepared system, which brings all its vectors with it, or the system of three diagonals
    and a right-hand side. -/
def solve (source : Source) (diag upper rhs : Option Datum) (backend : Datum) :
    Except Fault Solution := do
  match source, Datum.given? diag, Datum.given? upper, Datum.given? rhs with
  | .prepared S, none, none, none => S.solveWith backend
  | .prepared _, _, _, _ => throw (.invalid .diagonalsGiven)
  | .lower c, some d, some e, some b => (← System.ofDiagonals c d e b).solveWith backend
  | .lower _, _, _, _ => throw (.invalid .diagonalsMissing)

namespace Solution

/-- What is left of every row for the unknowns as they stand. -/
def residual (S : Solution) : Vector Float S.system.n :=
  S.system.band.residual S.params.x

/-- The largest magnitude in the residual. -/
def residualNorm (S : Solution) : Float :=
  Dense.maxAbs S.residual

/-- The summary, with the time if it is known. -/
def summary (S : Solution) (time : Option String) : String :=
  Summary.text {
    title := "Tridiagonal (Thomas) Results"
    facts := ["Unknowns: " ++ toString S.system.n, Summary.residualFact S.residualNorm]
    first := 0
    x := S.params.x.toList
    backend := backendName
    time
    warnings := [] }

/-- The solution in one line. -/
def brief (S : Solution) : String :=
  "TridiagonalSolution(n=" ++ toString S.system.n ++ ", residual_norm="
    ++ Decimal.scientific 3 S.residualNorm ++ ")"

end Solution

end LinearSystems.Tridiagonal
