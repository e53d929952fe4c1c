import LinearSystems.Tensor.Check

/-!
# Dense systems

Equations `[A|b]` as they stand, and systems of equations that are ready to be eliminated: at least
one row, one more column than rows, all entries finite. A system is built from an augmented matrix,
or from a square matrix and a right-hand side that are joined and then checked as an augmented
matrix.
-/

namespace LinearSystems.Gauss

/-- Equations with at least one unknown; the entries may be of any kind. -/
structure Equations where
  n : Nat
  n_pos : 0 < n
  augmented : Dense Float n (n + 1)

namespace Equations

/-- The coefficient matrix. -/
def coefficients (E : Equations) : Dense Float E.n E.n :=
  E.augmented.coefficients

/-- The right-hand side. -/
def rightHandSide (E : Equations) : Vector Float E.n :=
  E.augmented.rightHandSide

end Equations

/-- A dense system that passed all checks. -/
structure System extends Equations where
  finite : ∀ (i : Fin n) (j : Fin (n + 1)), augmented[i][j].isFinite = true

namespace System

/-- The name that faults of the augmented matrix show. -/
def augmentedName : String := "augmented_matrix"

/-- Checks an array as an augmented matrix: two dimensions, a row, one more column than rows, and
    finite entries, in this order. -/
def ofTensor (t : Tensor) : Except Fault System := do
  let _ ← t.checkMatrix augmentedName
  let ⟨_, hpos, hhead⟩ ← t.checkNonempty augmentedName
  let ⟨n, hshape⟩ ← t.checkAugmented augmentedName
  let ⟨hfinite⟩ ← t.checkFinite augmentedName
  return {
    n
    n_pos := Tensor.rows_pos hpos hhead hshape
    augmented := t.toDense n (n + 1) hshape
    finite := fun i j => hfinite _ (t.toDense_mem hshape i j) }

/-- The system of an augmented matrix. -/
def ofAugmented (augmented : Datum) : Except Fault System := do
  ofTensor (← Tensor.ofDatum augmentedName augmented)

/-- The system of a square matrix and a right-hand side of its order. -/
def ofParts (A b : Datum) : Except Fault System := do
  let tA ← Tensor.ofDatum "A" A
  let tb ← Tensor.ofDatum "b" b
  let _ ← tA.checkMatrix "A"
  let ⟨_, hb⟩ ← tb.checkVector "b"
  let _ ← tA.checkNonempty "A"
  let ⟨n, hA⟩ ← tA.checkSquare "A"
  let ⟨hlengths⟩ ← Tensor.checkLengths [tA, tb] ["A", "b"]
  have hmn : tb.shape = [n] := hlengths.shape_eq hb hA
  ofTensor (Tensor.ofDense (Dense.glue (tA.toDense n n hA) (tb.toVector n hmn)))

end System

end LinearSystems.Gauss
