import LinearSystems.Dense

/-!
# Forward elimination

An augmented matrix `[A|b]` of `n` rows is brought to triangular form in `n` steps. Step `i`
chooses a pivot, refuses it if its magnitude is below the threshold, and subtracts from every row
below row `i` the multiple of row `i` that cancels its entry in column `i`.

The cancelled entry is computed like every other one, so under rounding a small residue may stay
below the pivot. Nothing reads it afterwards.

The run after `k` steps is `Progress.after`, by recursion on `k`, so that a statement about every
step of a run is an induction on `k`.
-/

namespace LinearSystems.Gauss

variable {α : Type u} [Scalar α]

/-- How the pivot of a step is chosen: as it stands on the diagonal, or as the entry of largest
    magnitude among the coefficients not yet eliminated. -/
inductive Pivoting where
  | diagonal
  | complete
  deriving DecidableEq, Repr

/-- The state of a run: the working matrix, the unknown that each column now stands for, and the
    pivots accepted so far, in order. -/
structure Progress (α : Type u) (n : Nat) where
  matrix : Dense α n (n + 1)
  columns : Vector (Fin n) n
  pivots : List α

/-- Why a run stopped: the step whose pivot was too small, that pivot, and the state in which it was
    found, after the exchanges of the step. -/
structure Breakdown (α : Type u) (n : Nat) where
  step : Fin n
  pivot : α
  progress : Progress α n

/-- Subtracts from each row from `first` on the multiple of row `p` that cancels its entry in
    column `c`, in the columns from `c` on. -/
def eliminateFrom {m w : Nat} (M : Dense α m w) (p : Fin m) (c : Fin w) (first : Nat) :
    Dense α m w :=
  Dense.ofFn fun j k =>
    if first ≤ j.val ∧ c ≤ k then M[j][k] - M[j][c] / M[p][c] * M[p][k] else M[j][k]

/-- Eliminates unknown `i` from the rows below row `i`, the right-hand side included. -/
def eliminateBelow {n : Nat} (M : Dense α n (n + 1)) (i : Fin n) : Dense α n (n + 1) :=
  eliminateFrom M i i.castSucc (i.val + 1)

/-- Only entries below row `i`, from column `i` on, change. -/
theorem getElem_eliminateBelow {n : Nat} (M : Dense α n (n + 1)) (i j : Fin n) (k : Fin (n + 1)) :
    (eliminateBelow M i)[j][k] =
      if i < j ∧ i.castSucc ≤ k then M[j][k] - M[j][i.castSucc] / M[i][i.castSucc] * M[i][k]
      else M[j][k] := by
  simp only [eliminateBelow, eliminateFrom, Dense.getElem_ofFn, Fin.lt_def, Nat.succ_le_iff]

/-- The places of the coefficient block that starts at a given row and column, row by row. -/
def block (n row column : Nat) : List (Fin n × Fin n) :=
  (List.finRange n).flatMap fun r =>
    if row ≤ r.val then
      ((List.finRange n).filter fun c => column ≤ c.val).map fun c => (r, c)
    else []

/-- The place whose value leads the others: the first that holds no number, or else the first of
    the largest. -/
def firstLargest {β : Type v} (value : β → α) (p : β) (ps : List β) : β :=
  ps.foldl (fun best q => if Scalar.outranks (value q) (value best) then q else best) p

/-- The magnitude of a coefficient; the right-hand side is not among the places. -/
def magnitude {n : Nat} (M : Dense α n (n + 1)) (p : Fin n × Fin n) : α :=
  Scalar.abs M[p.1][p.2.castSucc]

/-- The place of the largest coefficient that is not yet eliminated at step `i`. Among equals the
    first row by row leads, so the diagonal entry leads when it is a maximum. -/
def largestFrom {n : Nat} (M : Dense α n (n + 1)) (i : Fin n) : Fin n × Fin n :=
  firstLargest (magnitude M) (i, i) (block n i.val i.val)

namespace Progress

/-- The state before the first step: no column is exchanged and no pivot accepted. -/
def start {n : Nat} (M : Dense α n (n + 1)) : Progress α n where
  matrix := M
  columns := Vector.ofFn id
  pivots := []

/-- Moves the chosen pivot of step `i` to the diagonal. A column exchange is recorded, a row
    exchange needs no record. -/
def arrange {n : Nat} (mode : Pivoting) (P : Progress α n) (i : Fin n) : Progress α n :=
  match mode with
  | .diagonal => P
  | .complete =>
    let p := largestFrom P.matrix i
    { P with
      matrix := (P.matrix.swapRows i p.1).swapColumns i.castSucc p.2.castSucc
      columns := P.columns.swap i p.2 i.isLt p.2.isLt }

/-- One step: arrange, test the pivot, record it and eliminate below it. -/
def advance {n : Nat} (mode : Pivoting) (threshold : α) (P : Progress α n) (i : Fin n) :
    Except (Breakdown α n) (Progress α n) :=
  let Q := P.arrange mode i
  let pivot := Q.matrix[i][i.castSucc]
  if Scalar.isBelow threshold pivot then
    .error { step := i, pivot, progress := Q }
  else
    .ok { Q with matrix := eliminateBelow Q.matrix i, pivots := Q.pivots ++ [pivot] }

/-- The run after its first `k` steps. -/
def after {n : Nat} (mode : Pivoting) (threshold : α) (M : Dense α n (n + 1)) :
    (k : Nat) → k ≤ n → Except (Breakdown α n) (Progress α n)
  | 0, _ => .ok (start M)
  | k + 1, h => do
    let P ← after mode threshold M k (Nat.le_of_succ_le h)
    P.advance mode threshold ⟨k, h⟩

end Progress

/-- The whole run: one step for each row. -/
def eliminate {n : Nat} (mode : Pivoting) (threshold : α) (M : Dense α n (n + 1)) :
    Except (Breakdown α n) (Progress α n) :=
  Progress.after mode threshold M n (Nat.le_refl n)

end LinearSystems.Gauss
