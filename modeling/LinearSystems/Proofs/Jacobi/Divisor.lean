import LinearSystems.Jacobi.Solution
import LinearSystems.Proofs.Divisor
import LinearSystems.Proofs.Jacobi.FixedPoint

/-!
# Divisors of the fixed-point form

The fixed-point form divides by the diagonal of the matrix as it was given, and the entries of a
system are finite. So here the test of the divisors is all that is needed.
-/

namespace LinearSystems.Jacobi

variable {n : Nat} {A : Dense Float n n} {b : Vector Float n}

/-- What the fixed-point form has to divide by: every diagonal entry. -/
inductive Required (A : Dense Float n n) : Float → Prop
  | diagonal (i : Fin n) : Required A A[i][i]

/-- What the fixed-point form divides by, if it is made at all: every diagonal entry. -/
inductive Used (A : Dense Float n n) (b : Vector Float n) : Float → Prop
  | diagonal {F : FixedPoint Float n} (hF : toFixedPoint pivotThreshold A b = .ok F) (i : Fin n) :
      Used A b A[i][i]

theorem exists_toFixedPoint_eq_error {i : Fin n}
    (hi : Scalar.isBelow pivotThreshold A[i][i] = true) :
    ∃ d, toFixedPoint pivotThreshold A b = .error d := by
  cases hform : toFixedPoint pivotThreshold A b with
  | error d => exact ⟨d, rfl⟩
  | ok F =>
    have hpassed := (toFixedPoint_eq_ok_iff.mp hform).1 i
    rw [hi] at hpassed
    cases hpassed

/-- Among the diagonal entries of a system those that pass the test are admissible. -/
theorem System.isBelow_eq_false_iff (S : System) (i : Fin S.n) :
    Scalar.isBelow pivotThreshold S.matrix[i][i] = false ↔ Admissible S.matrix[i][i] := by
  have hnumber : S.matrix[i][i].isNaN = false := Double.isNaN_of_isFinite (S.matrix_finite i i)
  rw [isBelow_pivotThreshold_eq_false_iff, hnumber]
  simp only [Bool.false_eq_true, false_or]

/-- The iteration keeps the promise about divisors on every system. -/
theorem System.guarded (S : System) (s : Settings) :
    Guarded (Required S.matrix) (Used S.matrix S.rhs) (S.run s) := by
  refine ⟨?_, ?_⟩
  · rintro v ⟨hF, i⟩
    exact (S.isBelow_eq_false_iff i).mp ((toFixedPoint_eq_ok_iff.mp hF).1 i)
  · rintro v ⟨i⟩ hbad
    have hsmall : Scalar.isBelow pivotThreshold S.matrix[i][i] = true := by
      by_contra htest
      exact hbad ((S.isBelow_eq_false_iff i).mp (Bool.eq_false_iff.mpr htest))
    obtain ⟨d, hd⟩ := exists_toFixedPoint_eq_error (b := S.rhs) hsmall
    refine ⟨.smallDiagonal (d.index.val + 1) d.value pivotThreshold, ?_, .inr rfl⟩
    rw [System.run, hd]

end LinearSystems.Jacobi
