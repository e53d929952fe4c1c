import Mathlib
import LinearSystems.Proofs.Jacobi.Contraction

/-!
# The residual of an iterate

A step gives every row the component that it asks for while the other components are as they were.
So what the result leaves of a row is what the step has changed in the other components, weighted
with their coefficients, and in exact arithmetic the last change bounds the residual of an answer,
whether or not the iteration comes nearer to a solution.
-/

namespace LinearSystems.Jacobi

variable {n : Nat}

/-- What the result of a step leaves of a row comes from the other components alone. -/
theorem getElem_residual_next {A : Dense Rat n n} (b x : Vector Rat n) {i : Fin n}
    (hi : A[i][i] ≠ 0) :
    (Dense.residual A b ((FixedPoint.divide A b).next x))[i] =
      ∑ j : Fin n with j ≠ i, A[i][j] * (((FixedPoint.divide A b).next x)[j] - x[j]) := by
  have hrow := mul_next_divide_sub b x hi
  have hsplit := sum_eq_add_sum_ne
    (fun j : Fin n => A[i][j] * (((FixedPoint.divide A b).next x)[j] - x[j])) i
  have hsum : ∑ j : Fin n, A[i][j] * (((FixedPoint.divide A b).next x)[j] - x[j]) =
      ∑ j : Fin n, A[i][j] * ((FixedPoint.divide A b).next x)[j] -
        ∑ j : Fin n, A[i][j] * x[j] := by
    rw [← Finset.sum_sub_distrib]
    exact Finset.sum_congr rfl fun j _ => mul_sub _ _ _
  rw [Dense.getElem_residual]
  linarith

theorem abs_residual_next_le {A : Dense Rat n n} (b x : Vector Rat n) {i : Fin n}
    (hi : A[i][i] ≠ 0) :
    |(Dense.residual A b ((FixedPoint.divide A b).next x))[i]| ≤
      change ((FixedPoint.divide A b).next x) x * A.offDiagonal i := by
  rw [getElem_residual_next b x hi]
  calc |∑ j : Fin n with j ≠ i, A[i][j] * (((FixedPoint.divide A b).next x)[j] - x[j])|
      ≤ ∑ j : Fin n with j ≠ i, |A[i][j] * (((FixedPoint.divide A b).next x)[j] - x[j])| :=
        Finset.abs_sum_le_sum_abs _ _
    _ ≤ ∑ j : Fin n with j ≠ i, change ((FixedPoint.divide A b).next x) x * |A[i][j]| := by
      apply Finset.sum_le_sum
      intro j _
      rw [abs_mul, mul_comm]
      exact mul_le_mul_of_nonneg_right (abs_sub_le_change _ x j) (abs_nonneg _)
    _ = change ((FixedPoint.divide A b).next x) x * A.offDiagonal i :=
      (Finset.mul_sum _ _ _).symm

/-- In exact arithmetic every system whose diagonal passes its test has a fixed-point form, and
    every run that makes a step at all ends with a residual that its last change bounds: in each row
    it is at most the last change times what stands beside the diagonal entry. So if the run
    converges, the norm of the residual is at most the tolerance times the largest of these. Nothing
    is asked of the norm of `alpha`. -/
theorem residual_bounded_by_last_change {t : Rat} (ht : 0 < t) (hn : 0 < n) {A : Dense Rat n n}
    (hdiagonal : ∀ i : Fin n, t ≤ |A[i][i]|) (b : Vector Rat n) :
    ∃ F, toFixedPoint t A b = .ok F ∧ ∀ (tolerance : Rat) (m : Nat), 0 < m →
      ∃ d, (iterate F tolerance m).lastDifference = some d ∧
        (∀ i : Fin n,
          |(Dense.residual A b (iterate F tolerance m).x)[i]| ≤ d * A.offDiagonal i) ∧
        ((iterate F tolerance m).converged = true →
          Dense.maxAbs (Dense.residual A b (iterate F tolerance m).x) ≤
            tolerance * Finset.univ.sup' ⟨⟨0, hn⟩, Finset.mem_univ _⟩ A.offDiagonal) := by
  have hpassed (i : Fin n) : Scalar.isBelow t A[i][i] = false :=
    Scalar.isBelow_rat_eq_false_iff.mpr (hdiagonal i)
  have hne (i : Fin n) : A[i][i] ≠ 0 := Scalar.ne_zero_of_isBelow_eq_false ht (hpassed i)
  refine ⟨_, toFixedPoint_eq_ok_iff.mpr ⟨hpassed, rfl⟩, fun tolerance m hm => ?_⟩
  obtain ⟨k, -, hx, hlast⟩ := exists_last_step (FixedPoint.divide A b) tolerance hm
  have hrow (i : Fin n) :
      |(Dense.residual A b (iterate (FixedPoint.divide A b) tolerance m).x)[i]| ≤
        (FixedPoint.divide A b).changeAt k * A.offDiagonal i := by
    rw [hx]
    exact abs_residual_next_le b _ (hne i)
  refine ⟨_, hlast, hrow, fun hconverged => ?_⟩
  obtain ⟨j, -, hsmall, hrun⟩ := exists_less_of_converged hconverged
  rw [hrun, Option.some.injEq] at hlast
  rw [hlast, Scalar.less_rat_eq_true_iff] at hsmall
  have htolerance : 0 ≤ tolerance := (change_nonneg _ _).trans hsmall.le
  have hlargest (i : Fin n) :
      A.offDiagonal i ≤ Finset.univ.sup' ⟨⟨0, hn⟩, Finset.mem_univ _⟩ A.offDiagonal :=
    Finset.le_sup' A.offDiagonal (Finset.mem_univ i)
  apply Dense.maxAbs_le
  · exact mul_nonneg htolerance ((A.offDiagonal_nonneg ⟨0, hn⟩).trans (hlargest _))
  · intro i
    calc |(Dense.residual A b (iterate (FixedPoint.divide A b) tolerance m).x)[i]|
        ≤ (FixedPoint.divide A b).changeAt k * A.offDiagonal i := hrow i
      _ ≤ tolerance * A.offDiagonal i :=
        mul_le_mul_of_nonneg_right hsmall.le (A.offDiagonal_nonneg i)
      _ ≤ tolerance * Finset.univ.sup' ⟨⟨0, hn⟩, Finset.mem_univ _⟩ A.offDiagonal :=
        mul_le_mul_of_nonneg_left (hlargest i) htolerance

/-- The norm of `alpha` is two here, and yet the run converges. -/
theorem residual_bounded_by_last_change_two_rows :
    ∃ F : FixedPoint Rat 2,
      toFixedPoint (1 / 1000000) #v[#v[4, 1], #v[6, 3]] #v[1, 2] = .ok F ∧ infNorm F.alpha = 2 ∧
        (iterate F (1 / 10) 9).converged = true ∧
        (∃ d, (iterate F (1 / 10) 9).lastDifference = some d ∧ ∀ i : Fin 2,
          |(Dense.residual #v[#v[4, 1], #v[6, 3]] #v[1, 2] (iterate F (1 / 10) 9).x)[i]| ≤
            d * Dense.offDiagonal #v[#v[4, 1], #v[6, 3]] i) ∧
        Dense.maxAbs
            (Dense.residual #v[#v[4, 1], #v[6, 3]] #v[1, 2] (iterate F (1 / 10) 9).x) ≤
          1 / 10 * Finset.univ.sup' ⟨⟨0, Nat.two_pos⟩, Finset.mem_univ _⟩
            (Dense.offDiagonal #v[#v[4, 1], #v[6, 3]]) := by
  have hform : toFixedPoint (1 / 1000000 : Rat) #v[#v[4, 1], #v[6, 3]] #v[1, 2] =
      .ok ⟨#v[#v[0, -1 / 4], #v[-2, 0]], #v[1 / 4, 2 / 3]⟩ := by cbv
  have hnorm : infNorm (#v[#v[0, -1 / 4], #v[-2, 0]] : Dense Rat 2 2) = 2 := by cbv
  have hconverged : (iterate (⟨#v[#v[0, -1 / 4], #v[-2, 0]], #v[1 / 4, 2 / 3]⟩ : FixedPoint Rat 2)
      (1 / 10) 9).converged = true := by
    decide +kernel
  have hdiagonal : ∀ i : Fin 2,
      (1 / 1000000 : Rat) ≤ |(#v[#v[4, 1], #v[6, 3]] : Dense Rat 2 2)[i][i]| := by
    decide +kernel
  obtain ⟨F, hF, hbound⟩ :=
    residual_bounded_by_last_change (by norm_num) Nat.two_pos hdiagonal #v[1, 2]
  obtain rfl := Except.ok.inj (hF.symm.trans hform)
  obtain ⟨d, hd, hrow, hnorms⟩ := hbound (1 / 10) 9 (by norm_num)
  exact ⟨_, hF, hnorm, hconverged, ⟨d, hd, hrow⟩, hnorms hconverged⟩

end LinearSystems.Jacobi
