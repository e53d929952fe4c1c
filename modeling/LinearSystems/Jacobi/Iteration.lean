import LinearSystems.Jacobi.FixedPoint
import LinearSystems.Jacobi.RowSum

/-!
# Simple iteration

The iteration starts at `beta` and repeats the step `x ↦ beta + alpha x` until two successive
iterates differ by less than a tolerance in every component, or until the allowed number of steps
is used up. The step that meets the tolerance is not counted.
-/

namespace LinearSystems.Jacobi

variable {α : Type u} [Scalar α]

/-- How an iteration ended: the last iterate, the steps counted, whether the tolerance was met, and
    the last difference, which is absent when no step was made. -/
structure Run (α : Type u) (n : Nat) where
  x : Vector α n
  iterations : Nat
  converged : Bool
  lastDifference : Option α

/-- The largest change of a component between two iterates. -/
def change {n : Nat} (y x : Vector α n) : α :=
  Dense.maxAbs (Dense.difference y x)

/-- Continues an iteration that stands at `x` after `count` counted steps, for at most `budget`
    further steps. -/
def iterateFrom {n : Nat} (F : FixedPoint α n) (tolerance : α) :
    (budget count : Nat) → (x : Vector α n) → (last : Option α) → Run α n
  | 0, count, x, last => { x, iterations := count, converged := false, lastDifference := last }
  | budget + 1, count, x, _ =>
    let y := F.next x
    let d := change y x
    if Scalar.less d tolerance then
      { x := y, iterations := count, converged := true, lastDifference := some d }
    else
      iterateFrom F tolerance budget (count + 1) y (some d)

/-- The whole iteration, from `beta`. -/
def iterate {n : Nat} (F : FixedPoint α n) (tolerance : α) (budget : Nat) : Run α n :=
  iterateFrom F tolerance budget 0 F.beta none

end LinearSystems.Jacobi
