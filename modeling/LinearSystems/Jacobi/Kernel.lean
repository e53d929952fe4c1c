import LinearSystems.Jacobi.FixedPoint
import LinearSystems.Jacobi.RowSum
import LinearSystems.Tensor.Entrywise
import LinearSystems.Tolerance

/-!
# The fixed-point form by itself

The transform of a system and the norm of a matrix on unchecked data. The arrays may have any shape
for which the operations mean something: a matrix need not be square, and a right-hand side of one
entry stands for a constant one.
-/

namespace LinearSystems.Jacobi

/-- The form of a system, as far as its arrays have one, and the norm of its matrix. -/
structure Transformed where
  alpha : Tensor
  beta : Tensor
  norm : Float

/-- The terms of one sum along the second axis: those of row `i` at place `k` of the axes after the
    second. -/
def termsAlong (t : Tensor) (n inner i k : Nat) : List Float :=
  (List.range n).map fun j => t.entries.getD ((i * n + j) * inner + k) 0.0

/-- The sum of the terms along the second axis. The terms of a row that lie side by side are added
    in blocks, others in their order. -/
def sumAlong (t : Tensor) (n inner i k : Nat) : Float :=
  let terms := (termsAlong t n inner i k).map Float.abs
  if inner = 1 then pairwiseSum terms else terms.foldl (· + ·) 0.0

/-- The largest sum of magnitudes along the second axis of an array. -/
def largestSum (t : Tensor) : Except Fault Float :=
  match t.shape with
  | m :: n :: rest =>
    let inner := volume rest
    if m * inner = 0 then .error (.misuse .emptyMaximum)
    else
      .ok ((List.range m).foldl (fun best i =>
        (List.range inner).foldl (fun best k => Scalar.larger best (sumAlong t n inner i k)) best)
        0.0)
  | shape => .error (.misuse (.noAxis 1 shape.length))

/-- Refuses the first diagonal entry that is too small to divide by. A diagonal that is itself a
    matrix has entries to test only up to one row. -/
def checkDiagonal (diagonal : Tensor) : Except Fault Unit :=
  let small? := diagonal.entries.findIdx? fun v => Scalar.isBelow pivotThreshold v
  match diagonal.shape, small? with
  | [_], some i =>
    .error (.smallDiagonal (i + 1) (diagonal.entries.getD i 0.0) pivotThreshold)
  | [1, 1], some _ => .error (.unreadable (.noPlaces "numpy.ndarray"))
  | [_ + 2, _], _ => .error (.unreadable .ambiguousTruth)
  | _, _ => .ok ()

/-- Transforms a matrix and a right-hand side. -/
def transform (A b : Datum) : Except Fault Transformed := do
  let A ← Tensor.coerce A
  let b ← Tensor.coerce b
  let diagonal ← A.diagonal
  checkDiagonal diagonal
  let beta ← b.zipWith (· / ·) diagonal
  let alpha ← (← A.zipWith (fun a d => -a / d) diagonal.spread).clearDiagonal
  return { alpha, beta, norm := ← largestSum alpha }

/-- The largest sum of magnitudes over the rows of a matrix. -/
def rowNorm (alpha : Datum) : Except Fault Float := do
  largestSum (← Tensor.coerce alpha)

end LinearSystems.Jacobi
