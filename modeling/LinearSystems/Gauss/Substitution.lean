import LinearSystems.Gauss.Elimination

/-!
# Back substitution

The triangular system that elimination leaves is solved from its last row upwards, and the answer,
which is numbered by column, is put back into the order of the unknowns.
-/

namespace LinearSystems.Gauss

variable {α : Type u} [Scalar α]

/-- What row `i` takes from the unknowns after `i`: the running sum of their terms, in column
    order from zero. -/
def tail {n : Nat} (M : Dense α n (n + 1)) (i : Fin n) (x : Vector α n) : α :=
  Fin.foldl n (fun s k => if i < k then s + M[i][k.castSucc] * x[k] else s) 0

/-- The value of unknown `i`, given the unknowns after it. -/
def solveRow {n : Nat} (M : Dense α n (n + 1)) (i : Fin n) (x : Vector α n) : α :=
  (M[i][Fin.last n] - tail M i x) / M[i][i.castSucc]

/-- The solution of the upper triangular system, from the last row to the first. What stands below
    the diagonal is not read. -/
def backSubstitute {n : Nat} (M : Dense α n (n + 1)) : Vector α n :=
  Fin.foldr n (fun i x => x.set i (solveRow M i x) i.isLt) (Vector.replicate n 0)

/-- Gives each value to the unknown that its column stands for. -/
def unpermute {n : Nat} (columns : Vector (Fin n) n) (y : Vector α n) : Vector α n :=
  Fin.foldl n (fun x k => x.set columns[k] y[k] columns[k].isLt) y

/-- A solved system: the unknowns in their own order, the pivots used, and, when columns may have
    been exchanged, the unknown that each column stood for in the end. -/
structure Solved (α : Type u) (n : Nat) where
  x : Vector α n
  pivots : List α
  columns : Option (Vector (Fin n) n)

/-- Reads the answer off a finished run. -/
def Progress.solved {n : Nat} (mode : Pivoting) (P : Progress α n) : Solved α n :=
  match mode with
  | .diagonal => { x := backSubstitute P.matrix, pivots := P.pivots, columns := none }
  | .complete =>
    { x := unpermute P.columns (backSubstitute P.matrix)
      pivots := P.pivots
      columns := some P.columns }

/-- Solves `[A|b]`, or says at which step a pivot was too small. -/
def solve {n : Nat} (mode : Pivoting) (threshold : α) (M : Dense α n (n + 1)) :
    Except (Breakdown α n) (Solved α n) :=
  (eliminate mode threshold M).map fun P => P.solved mode

end LinearSystems.Gauss
