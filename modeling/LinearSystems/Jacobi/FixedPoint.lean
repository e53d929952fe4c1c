import LinearSystems.Dense

/-!
# Fixed-point form

A system `A x = b` takes the form `x = alpha x + beta` when each row is divided by its diagonal
entry and solved for its own unknown. It has no such form if a diagonal entry is too small to divide
by; the first such entry is reported.
-/

namespace LinearSystems.Jacobi

variable {α : Type u} [Scalar α]

/-- The system `x = alpha x + beta`. -/
structure FixedPoint (α : Type u) (n : Nat) where
  alpha : Dense α n n
  beta : Vector α n

/-- A diagonal entry that is too small to divide by. -/
structure SmallDiagonal (α : Type u) (n : Nat) where
  index : Fin n
  value : α

/-- The first diagonal entry below the threshold. -/
def firstSmall? {n : Nat} (threshold : α) (A : Dense α n n) : Option (Fin n) :=
  (List.finRange n).find? fun i => Scalar.isBelow threshold A[i][i]

/-- Divides each row by its diagonal entry: the right-hand side gives `beta`, the negated
    coefficients give `alpha`, whose own diagonal is zero. -/
def FixedPoint.divide {n : Nat} (A : Dense α n n) (b : Vector α n) : FixedPoint α n where
  alpha := Dense.ofFn fun i j => if i = j then 0 else -A[i][j] / A[i][i]
  beta := Vector.ofFn fun i => b[i] / A[i][i]

/-- The fixed-point form, if every diagonal entry can be divided by. -/
def toFixedPoint {n : Nat} (threshold : α) (A : Dense α n n) (b : Vector α n) :
    Except (SmallDiagonal α n) (FixedPoint α n) :=
  match firstSmall? threshold A with
  | some i => .error { index := i, value := A[i][i] }
  | none => .ok (FixedPoint.divide A b)

/-- One step of the iteration: every component of the result is computed from `x` alone. -/
def FixedPoint.next {n : Nat} (F : FixedPoint α n) (x : Vector α n) : Vector α n :=
  Vector.zipWith (· + ·) F.beta (Dense.mulVec F.alpha x)

end LinearSystems.Jacobi
