import LinearSystems.Tensor.Operations
import LinearSystems.Tolerance

/-!
# The sweep by itself

The forward sweep and the back substitution on unchecked data. The main diagonal sets the count of
rows; the arrays may have any shape, and it matters only whether the entries that are read are there
and are single numbers in the end. The corners that belong to no unknown are not read.
-/

namespace LinearSystems.Tridiagonal

/-- The arrays of a sweep. -/
structure Sides where
  lower : Tensor
  diag : Tensor
  upper : Tensor
  rhs : Tensor

/-- The coefficients of the rows that are swept. The last `alpha` belongs to no unknown and is
    zero. -/
structure Swept where
  alpha : Array Float := #[]
  beta : Array Float := #[]

namespace Sides

/-- What is left of an entry of row `i` once what the row before it gives is taken off. The first
    row has none before it. -/
def reduced (s : Sides) (entries : Tensor) (i : Nat) (before : Array Float) :
    Except Fault Tensor := do
  let entry ← entries.row i
  match i with
  | 0 => return entry
  | k + 1 =>
    let lower ← s.lower.row i
    entry.zipWith (fun x c => x - c * before.getD k 0.0) lower

/-- Sweeps row `i` of `n`. -/
def sweepRow (s : Sides) (n i : Nat) (S : Swept) : Except Fault Swept := do
  let divisor ← s.reduced s.diag i S.alpha
  divisor.checkDivisor pivotThreshold fun v => .smallDivisor (.sweep i) v pivotThreshold
  let alpha ←
    if i + 1 < n then (← (← s.upper.row i).zipWith (· / ·) divisor).stored else pure 0.0
  let beta ← (← (← s.reduced s.rhs i S.beta).zipWith (· / ·) divisor).stored
  return { alpha := S.alpha.push alpha, beta := S.beta.push beta }

/-- Sweeps the rows from row `i` of `n` on. -/
def sweepRows (s : Sides) (n : Nat) : (i count : Nat) → Swept → Except Fault Swept
  | _, 0, S => .ok S
  | i, count + 1, S => do sweepRows s n (i + 1) count (← s.sweepRow n i S)

/-- Sweeps all rows, of which there is at least one. -/
def sweep (s : Sides) : Except Fault Swept := do
  match s.diag.shape with
  | [] => throw (.misuse .noDimension)
  | 0 :: _ => throw (.misuse (.outOfRange 0 0 0))
  | n :: _ => s.sweepRows n 0 n {}

end Sides

/-- The unknowns from the first on, given the one after the first `count` ones and those after it.
    -/
def solveRows (alpha beta : Tensor) : (count : Nat) → (next : Float) → (later : List Float) →
    Except Fault (List Float)
  | 0, next, later => .ok (next :: later)
  | i + 1, next, later => do
    let x ← (← (← beta.row i).zipWith (fun b a => b - a * next) (← alpha.row i)).stored
    solveRows alpha beta i x (next :: later)

/-- The unknowns of swept rows, of which there is at least one. The last `alpha` may be missing. -/
def solveAll (alpha beta : Tensor) : Except Fault (List Float) := do
  match beta.shape with
  | [] => throw (.misuse .noDimension)
  | 0 :: _ => throw (.misuse (.outOfRange (-1) 0 0))
  | (n + 1) :: _ => solveRows alpha beta n (← (← beta.row n).stored) []

/-- The coefficients of a sweep and the unknowns that follow from them. -/
structure Outcome where
  alpha : List Float
  beta : List Float
  x : List Float

/-- Sweeps three diagonals and a right-hand side. -/
def sweepVectors (lower diag upper rhs : Datum) : Except Fault Outcome := do
  let s : Sides := {
    lower := ← Tensor.coerce lower
    diag := ← Tensor.coerce diag
    upper := ← Tensor.coerce upper
    rhs := ← Tensor.coerce rhs }
  let S ← s.sweep
  let x ← solveAll (.ofVector ⟨S.alpha, rfl⟩) (.ofVector ⟨S.beta, rfl⟩)
  return { alpha := S.alpha.toList, beta := S.beta.toList, x }

/-- The unknowns of swept rows as they are given. -/
def backSubstituteVectors (alpha beta : Datum) : Except Fault (List Float) := do
  solveAll (← Tensor.coerce alpha) (← Tensor.coerce beta)

end LinearSystems.Tridiagonal
