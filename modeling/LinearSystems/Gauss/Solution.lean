import LinearSystems.Gauss.Substitution
import LinearSystems.Gauss.System
import LinearSystems.Index
import LinearSystems.Options
import LinearSystems.Result
import LinearSystems.Summary
import LinearSystems.Tolerance

/-!
# Solutions of dense systems

A solution shows its unknowns and, after complete pivoting, the unknown that each column stood for;
both may be written to. The residual is computed when it is first asked for and kept from then on,
so it does not follow later writes. The facts of the run keep their own copy of what they name.
-/

namespace LinearSystems.Gauss

namespace Pivoting

/-- The name of a way of pivoting. -/
def name : Pivoting → String
  | .diagonal => "none"
  | .complete => "complete"

/-- The name of the backend that pivots this way. -/
def backendName : Pivoting → String
  | .diagonal => "cpu_gauss"
  | .complete => "cpu_gauss_complete_pivot"

/-- The ways of pivoting by their names. -/
def named : List (String × Pivoting) :=
  [diagonal, complete].map fun mode => (mode.name, mode)

/-- The way of pivoting that a name stands for. -/
def ofDatum (d : Datum) : Except Fault Pivoting := do
  match (← d.nameAmong? (named.map (·.1))).bind fun name => named.lookup name with
  | some mode => return mode
  | none => throw (.misuse (.unknownPivoting d))

/-- Complete pivoting if it is asked for. -/
def ofRequest (d : Datum) : Except Fault Pivoting :=
  d.truth.map fun complete => if complete then .complete else .diagonal

/-- Where a divisor that is too small is looked for. -/
def smallDivisor (mode : Pivoting) (step : Nat) : SmallDivisor :=
  match mode with
  | .diagonal => .diagonalPivot step
  | .complete => .largestPivot step

end Pivoting

/-- What a run computes: the unknowns, the pivots, and, when columns may have been exchanged, the
    unknown that each column stands for in the end. -/
structure Params (n : Nat) where
  x : Vector Float n
  pivots : List Float
  columns : Option (Vector Int n)

/-- The payload of a solved system. -/
def Solved.params {n : Nat} (s : Solved Float n) : Params n where
  x := s.x
  pivots := s.pivots
  columns := s.columns.map fun columns => columns.map fun k => (k.val : Int)

/-- The columns as data. -/
def columnsDatum {n : Nat} : Option (Vector Int n) → Datum
  | none => .null
  | some columns => .list (columns.toList.map fun k => .number (.whole k))

/-- The facts of a run. -/
def info {n : Nat} (mode : Pivoting) (p : Params n) : List (String × Datum) :=
  [("method", .text "gauss"),
    ("pivoting", .text mode.name),
    ("n", .number (.whole n)),
    ("pivots", .ofFloats p.pivots),
    ("column_permutation", columnsDatum p.columns)]

/-- Solves equations. -/
def Equations.run (E : Equations) (mode : Pivoting) : Except Fault (Result (Params E.n)) :=
  match solve mode pivotThreshold E.augmented with
  | .error b => .error (.smallDivisor (mode.smallDivisor b.step) b.pivot pivotThreshold)
  | .ok s =>
    .ok (.ofRun s.params (info mode s.params) ["forward_elimination", "back_substitution"]
      mode.backendName [])

/-- Solved equations. -/
structure Solution where
  equations : Equations
  mode : Pivoting
  result : Result (Params equations.n)
  x : Vector Float equations.n
  columns : Option (Vector Int equations.n)
  kept : Option (Vector Float equations.n)

/-- Solves equations with the chosen backend, with complete pivoting if it is asked for. -/
def Equations.solveWith (E : Equations) (usePivot backend : Datum) : Except Fault Solution := do
  Options.checkBackend backend
  let mode ← Pivoting.ofRequest usePivot
  let result ← E.run mode
  return {
    equations := E
    mode
    result
    x := result.params.x
    columns := result.params.columns
    kept := none }

namespace Solution

/-- The residual that is kept, or else the one that `x` gives now. -/
def residual (S : Solution) : Vector Float S.equations.n :=
  S.kept.getD (Dense.residual S.equations.coefficients S.equations.rightHandSide S.x)

/-- The solution once its residual has been asked for. -/
def keepResidual (S : Solution) : Solution :=
  { S with kept := some S.residual }

/-- The largest magnitude in the residual. -/
def residualNorm (S : Solution) : Float :=
  Dense.maxAbs S.residual

/-- The solution of equations of which the entries have changed since. What was computed stays. -/
def withAugmented (S : Solution) (M : Dense Float S.equations.n (S.equations.n + 1)) : Solution :=
  { S with equations := { S.equations with augmented := M } }

/-- The summary with a residual of the given size, and with the time if it is known. -/
def summaryWith (S : Solution) (norm : Float) (time : Option String) : String :=
  Summary.text {
    title := "Gaussian Elimination Results"
    facts := [
      "Equations: " ++ toString S.equations.n,
      "Pivoting: " ++ S.mode.name,
      Summary.residualFact norm]
    first := 1
    x := S.x.toList
    backend := S.mode.backendName
    time
    warnings := [] }

/-- The solution in one line, with a residual of the given size. -/
def briefWith (S : Solution) (norm : Float) : String :=
  "GaussSolution(n=" ++ toString S.equations.n ++ ", pivoting=" ++ Text.quoted S.mode.name
    ++ ", residual_norm=" ++ Decimal.scientific 3 norm ++ ")"

end Solution

end LinearSystems.Gauss
