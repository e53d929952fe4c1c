import Mathlib
import LinearSystems.Proofs.Dense

/-!
# Exact arithmetic

What the operations of the solvers are on exact fractions, where no operation rounds, and what it
means there that a vector solves a system. The solutions of a system do not depend on the order of
its equations, and its unknowns may be renamed.
-/

namespace LinearSystems

namespace Scalar

theorem abs_rat (q : Rat) : Scalar.abs q = |q| := by
  show (if q < 0 then -q else q) = |q|
  split
  · rename_i hneg
    exact (abs_of_neg hneg).symm
  · rename_i hnonneg
    exact (abs_of_nonneg (not_lt.mp hnonneg)).symm

theorem isBelow_rat_eq_false_iff {t v : Rat} : isBelow t v = false ↔ t ≤ |v| := by
  show decide (Scalar.abs v < t) = false ↔ t ≤ |v|
  rw [abs_rat, decide_eq_false_iff_not, not_lt]

/-- With a positive threshold nothing that may be divided by is zero. -/
theorem ne_zero_of_isBelow_eq_false {t v : Rat} (ht : 0 < t) (hv : isBelow t v = false) :
    v ≠ 0 :=
  abs_pos.mp (lt_of_lt_of_le ht (isBelow_rat_eq_false_iff.mp hv))

end Scalar

/-- A running sum from zero is the sum of its terms. -/
theorem foldl_add_eq_sum {n : Nat} (f : Fin n → Rat) :
    Fin.foldl n (fun s k => s + f k) 0 = ∑ k, f k := by
  rw [Fin.foldl_eq_foldl_finRange, Fin.sum_univ_def, List.sum_eq_foldl, List.foldl_map]

/-- A sum over a row is its diagonal term and the terms beside it. -/
theorem sum_eq_add_sum_ne {n : Nat} (f : Fin n → Rat) (i : Fin n) :
    ∑ j, f j = f i + ∑ j with j ≠ i, f j := by
  rw [Finset.filter_ne', Finset.add_sum_erase _ _ (Finset.mem_univ i)]

namespace Dense

variable {n : Nat}

theorem dot_eq_sum (u v : Vector Rat n) : dot u v = ∑ k : Fin n, u[k] * v[k] :=
  foldl_add_eq_sum fun k : Fin n => u[k] * v[k]

/-- The vector meets every equation of the system `[A|b]`: row by row, the products of the
    coefficients and the unknowns add up to the right-hand side. -/
def IsSolution (M : Dense Rat n (n + 1)) (x : Vector Rat n) : Prop :=
  ∀ i : Fin n, ∑ j : Fin n, M[i][j.castSucc] * x[j] = M[i][Fin.last n]

theorem isSolution_glue_iff {A : Dense Rat n n} {b x : Vector Rat n} :
    IsSolution (glue A b) x ↔ ∀ i : Fin n, ∑ j : Fin n, A[i][j] * x[j] = b[i] := by
  simp only [IsSolution, getElem_glue_castSucc, getElem_glue_last]

theorem getElem_residual (A : Dense Rat n n) (b x : Vector Rat n) (i : Fin n) :
    (residual A b x)[i] = ∑ j : Fin n, A[i][j] * x[j] - b[i] := by
  simp [residual, difference, mulVec, dot_eq_sum]

/-- A vector solves a system exactly if nothing is left of any row. -/
theorem isSolution_glue_iff_residual {A : Dense Rat n n} {b x : Vector Rat n} :
    IsSolution (glue A b) x ↔ ∀ i : Fin n, (residual A b x)[i] = 0 := by
  simp only [isSolution_glue_iff, getElem_residual, sub_eq_zero]

/-- What stands in a row beside its diagonal entry: the sum of the magnitudes. -/
def offDiagonal (A : Dense Rat n n) (i : Fin n) : Rat :=
  ∑ j : Fin n with j ≠ i, |A[i][j]|

theorem offDiagonal_nonneg (A : Dense Rat n n) (i : Fin n) : 0 ≤ A.offDiagonal i :=
  Finset.sum_nonneg fun _ _ => abs_nonneg _

/-- The matrix with the entries that are stored row by row. -/
def toMatrix {m : Nat} (A : Dense Rat m n) : Matrix (Fin m) (Fin n) Rat :=
  Matrix.of fun i j => A[i][j]

@[simp]
theorem toMatrix_apply {m : Nat} (A : Dense Rat m n) (i : Fin m) (j : Fin n) :
    A.toMatrix i j = A[i][j] := rfl

/-- A vector solves a system exactly if the matrix takes it to the right-hand side. -/
theorem isSolution_glue_iff_mulVec {A : Dense Rat n n} {b x : Vector Rat n} :
    IsSolution (glue A b) x ↔ A.toMatrix.mulVec (fun j => x[j]) = fun i => b[i] := by
  rw [isSolution_glue_iff, funext_iff]
  rfl

/-- If no right-hand side has two solutions, every right-hand side has one. -/
theorem existsUnique_isSolution {A : Dense Rat n n}
    (h : ∀ b x y : Vector Rat n, IsSolution (glue A b) x → IsSolution (glue A b) y → x = y)
    (b : Vector Rat n) : ∃! x, IsSolution (glue A b) x := by
  have hofFn (v : Fin n → Rat) : (fun j : Fin n => (Vector.ofFn v)[j]) = v := by
    funext j
    simp
  have hinjective : Function.Injective A.toMatrix.mulVec := by
    intro v w hvw
    have heq := h (Vector.ofFn (A.toMatrix.mulVec v)) (Vector.ofFn v) (Vector.ofFn w)
      (isSolution_glue_iff_mulVec.mpr (by rw [hofFn, hofFn]))
      (isSolution_glue_iff_mulVec.mpr (by rw [hofFn, hofFn, hvw]))
    rw [← hofFn v, heq, hofFn]
  have hsurjective : Function.Surjective A.toMatrix.mulVec :=
    Matrix.mulVec_surjective_iff_isUnit.mpr (Matrix.mulVec_injective_iff_isUnit.mp hinjective)
  obtain ⟨v, hv⟩ := hsurjective fun i => b[i]
  have hx : IsSolution (glue A b) (Vector.ofFn v) :=
    isSolution_glue_iff_mulVec.mpr (by rw [hofFn, hv])
  exact ⟨Vector.ofFn v, hx, fun y hy => h b y _ hy hx⟩

/-- If every equation and every unknown keeps its place among the rearranged ones, the rearranged
    system has the solutions of the system, with their entries in the new order. -/
theorem isSolution_rearranged_iff {s p : Fin n → Fin n} (hs : Function.Surjective s)
    (hp : Function.Bijective p) (M : Dense Rat n (n + 1)) (x : Vector Rat n) :
    IsSolution (M.rearranged s p) (Vector.ofFn fun k => x[p k]) ↔ IsSolution M x := by
  have hrow (i : Fin n) :
      ∑ j : Fin n, (M.rearranged s p)[i][j.castSucc] * (Vector.ofFn fun k => x[p k])[j] =
        ∑ j : Fin n, M[s i][j.castSucc] * x[j] := by
    calc
      _ = ∑ j : Fin n, M[s i][(p j).castSucc] * x[p j] := by
        apply Finset.sum_congr rfl
        intro j _
        rw [getElem_rearranged_castSucc]
        simp only [getElem_fin, Vector.getElem_ofFn, Fin.eta]
      _ = ∑ j : Fin n, M[s i][j.castSucc] * x[j] :=
        hp.sum_comp fun j : Fin n => M[s i][j.castSucc] * x[j]
  constructor
  · intro hx i
    obtain ⟨k, rfl⟩ := hs i
    rw [← hrow, hx k, getElem_rearranged_last]
  · intro hx i
    rw [hrow, hx (s i), getElem_rearranged_last]

end Dense

end LinearSystems
