import LinearSystems.Tensor.Check

/-!
# Square systems

A system `A x = b` that is ready to be iterated: at least one row, a square matrix, a right-hand
side of the same order, all entries finite. A right-hand side given as one column is taken as a
vector.
-/

namespace LinearSystems.Jacobi

/-- A square system that passed all checks. -/
structure System where
  n : Nat
  n_pos : 0 < n
  matrix : Dense Float n n
  rhs : Vector Float n
  matrix_finite : ∀ i j : Fin n, matrix[i][j].isFinite = true
  rhs_finite : ∀ i : Fin n, rhs[i].isFinite = true

/-- The system of a square matrix and a right-hand side. -/
def System.ofParts (A b : Datum) : Except Fault System := do
  let tA ← Tensor.ofDatum "A" A
  let tb ← (Tensor.ofDatum "b" b).map Tensor.flattenColumn
  let _ ← tA.checkMatrix "A"
  let ⟨_, hb⟩ ← tb.checkVector "b"
  let ⟨_, hpos, hhead⟩ ← tA.checkNonempty "A"
  let ⟨n, hA⟩ ← tA.checkSquare "A"
  let ⟨hlengths⟩ ← Tensor.checkLengths [tA, tb] ["A", "b"]
  let ⟨hfiniteA⟩ ← tA.checkFinite "A"
  let ⟨hfiniteb⟩ ← tb.checkFinite "b"
  have hmn : tb.shape = [n] := hlengths.shape_eq hb hA
  return {
    n
    n_pos := Tensor.rows_pos hpos hhead hA
    matrix := tA.toDense n n hA
    rhs := tb.toVector n hmn
    matrix_finite := fun i j => hfiniteA _ (tA.toDense_mem hA i j)
    rhs_finite := fun i => hfiniteb _ (tb.toVector_mem hmn i) }

end LinearSystems.Jacobi
