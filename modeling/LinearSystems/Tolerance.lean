import LinearSystems.Comparison

/-!
# Thresholds and tolerances

The magnitude below which no solver divides, and the tolerances within which the answers of a
solver are expected to agree with a reference.
-/

namespace LinearSystems

/-- The least magnitude of a divisor. -/
def pivotThreshold : Float := 1e-6

/-- A relative and an absolute tolerance for the comparison of answers. -/
structure Tolerance where
  relative : Float
  absolute : Float
  name : String
  description : String

namespace Tolerance

/-- Direct solvers on a well-conditioned system. -/
def direct : Tolerance where
  relative := 1e-10
  absolute := 1e-12
  name := "direct"
  description := "Direct elimination, double precision, matches LAPACK"

/-- Direct solvers on an ill-conditioned system. -/
def directIllConditioned : Tolerance where
  relative := 1e-4
  absolute := 1e-6
  name := "direct_ill_conditioned"
  description := "Direct elimination, ill-conditioned (cond > 1e4)"

/-- Iterations, whose error follows the tolerance they stop at. -/
def iterative : Tolerance where
  relative := 1e-4
  absolute := 1e-5
  name := "iterative"
  description := "Fixed-point iteration stopped at a finite epsilon"

/-- The tolerance for a backend: iterations are told by their name, direct solvers by the condition
    of the system, which is not looked at for the others. -/
def select (backend illConditioned : Datum) : Except Fault Tolerance := do
  if ← backend.contains (.text "jacobi") then
    return iterative
  return if ← illConditioned.truth then directIllConditioned else direct

end Tolerance

end LinearSystems
