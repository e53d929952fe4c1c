import LinearSystems.Workspace.Cells

/-!
# Uses of a solution

What a caller does with a solution once it is there: looks at its unknowns, at its residual, at the
size of the residual, at its summary or at its one-line form, and writes to its unknowns. A look at
a residual makes an elimination keep it, and so does everything that shows its size.
-/

namespace LinearSystems

/-- A look at a solution, or a write to its unknowns. -/
inductive Use where
  | unknowns
  | residual
  | residualNorm
  | summary (time : Option String)
  | brief
  | write (places : List Place) (value : Datum)

/-- What a use of a solution shows. -/
inductive Sight where
  | vector (v : List Float)
  | number (x : Float)
  | text (s : String)
  | written (outcome : Except Fault Unit)

/-- The use shows the residual or its size. -/
def Use.asksResidual : Use → Bool
  | .residual | .residualNorm | .summary _ | .brief => true
  | .unknowns | .write _ _ => false

namespace Solution

/-- Uses a solution: the solution afterwards, and what was shown. -/
def use (S : Solution) : Use → Solution × Sight
  | .unknowns => (S, .vector S.x)
  | .residual => (S.keepResidual, .vector S.keepResidual.residual)
  | .residualNorm => (S.keepResidual, .number S.keepResidual.residualNorm)
  | .summary time =>
    (S.keepResidual, .text (S.keepResidual.summaryWith S.keepResidual.residualNorm time))
  | .brief => (S.keepResidual, .text (S.keepResidual.briefWith S.keepResidual.residualNorm))
  | .write places value =>
    ((S.assignArray "x" places value).1, .written (S.assignArray "x" places value).2)

/-- The solution after some uses. -/
def afterUses (S : Solution) : List Use → Solution
  | [] => S
  | u :: uses => (S.use u).1.afterUses uses

/-- The solution when its residual is asked for first, or after all uses if it never is. -/
def atFirstAsk (S : Solution) : List Use → Solution
  | [] => S
  | u :: uses => if u.asksResidual then S else (S.use u).1.atFirstAsk uses

/-- What is left of the system for the unknowns as they stand. -/
def currentResidual : Solution → List Float
  | .gauss S => (Dense.residual S.equations.coefficients S.equations.rightHandSide S.x).toList
  | .jacobi S => (Dense.residual S.system.matrix S.system.rhs S.x).toList
  | .tridiagonal S => (S.system.band.residual S.params.x).toList

end Solution

end LinearSystems
