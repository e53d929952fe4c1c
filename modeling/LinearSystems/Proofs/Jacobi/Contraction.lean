import Mathlib
import LinearSystems.Proofs.Jacobi.FixedPoint
import LinearSystems.Proofs.Jacobi.Iteration
import LinearSystems.Proofs.Jacobi.RowSum

/-!
# The iteration as a contraction

In exact arithmetic a step brings two vectors nearer to each other by at least the norm of `alpha`
as a factor. If the norm is below one, the system has one solution, and the iteration comes nearer
to it with every step: the changes of the steps fall at least geometrically, the last of them bounds
the distance to the solution, and a budget of steps can be named beforehand that is enough for a
given tolerance.
-/

namespace LinearSystems.Jacobi

variable {n : Nat}

theorem abs_sub_le_change (y x : Vector Rat n) (i : Fin n) : |y[i] - x[i]| ≤ change y x := by
  have hentry := Dense.abs_le_maxAbs (Dense.difference y x) i
  simp only [Dense.difference, getElem_fin, Vector.getElem_zipWith] at hentry
  exact hentry

theorem change_le {y x : Vector Rat n} {c : Rat} (hc : 0 ≤ c)
    (h : ∀ i : Fin n, |y[i] - x[i]| ≤ c) : change y x ≤ c := by
  apply Dense.maxAbs_le hc
  intro i
  simp only [Dense.difference, getElem_fin, Vector.getElem_zipWith]
  exact h i

theorem change_nonneg (y x : Vector Rat n) : 0 ≤ change y x :=
  Dense.maxAbs_nonneg _

/-- A row of a matrix takes a vector to at most the norm of the matrix times a bound of its
    entries. -/
theorem abs_sum_mul_le (A : Dense Rat n n) {v : Fin n → Rat} {c : Rat} (h : ∀ j, |v j| ≤ c)
    (i : Fin n) : |∑ j : Fin n, A[i][j] * v j| ≤ infNorm A * c := by
  have hc : 0 ≤ c := (abs_nonneg (v i)).trans (h i)
  calc |∑ j : Fin n, A[i][j] * v j|
      ≤ ∑ j : Fin n, |A[i][j] * v j| := Finset.abs_sum_le_sum_abs _ _
    _ ≤ ∑ j : Fin n, |A[i][j]| * c := by
        apply Finset.sum_le_sum
        intro j _
        rw [abs_mul]
        exact mul_le_mul_of_nonneg_left (h j) (abs_nonneg _)
    _ = (∑ j : Fin n, |A[i][j]|) * c := (Finset.sum_mul _ _ _).symm
    _ ≤ infNorm A * c := mul_le_mul_of_nonneg_right (sum_abs_le_infNorm A i) hc

namespace FixedPoint

variable {F : FixedPoint Rat n}

/-- A step brings two vectors nearer to each other by the norm of `alpha` as a factor. -/
theorem abs_next_sub_next_le (F : FixedPoint Rat n) {y x : Vector Rat n} {c : Rat}
    (h : ∀ i : Fin n, |y[i] - x[i]| ≤ c) (i : Fin n) :
    |(F.next y)[i] - (F.next x)[i]| ≤ infNorm F.alpha * c := by
  have hstep : (F.next y)[i] - (F.next x)[i] = ∑ j : Fin n, F.alpha[i][j] * (y[j] - x[j]) := by
    rw [F.getElem_next, F.getElem_next, Dense.dot_eq_sum, Dense.dot_eq_sum,
      add_sub_add_left_eq_sub, ← Finset.sum_sub_distrib]
    exact Finset.sum_congr rfl fun j _ => (mul_sub _ _ _).symm
  rw [hstep]
  exact abs_sum_mul_le F.alpha h i

/-- Each change is at most the norm of `alpha` times the one before it. -/
theorem changeAt_succ_le (F : FixedPoint Rat n) (k : Nat) :
    F.changeAt (k + 1) ≤ infNorm F.alpha * F.changeAt k :=
  change_le (mul_nonneg (infNorm_nonneg _) (change_nonneg _ _))
    (F.abs_next_sub_next_le (abs_sub_le_change _ _))

theorem changeAt_zero_le (F : FixedPoint Rat n) :
    F.changeAt 0 ≤ infNorm F.alpha * Dense.maxAbs F.beta := by
  apply change_le (mul_nonneg (infNorm_nonneg _) (Dense.maxAbs_nonneg _))
  intro i
  show |(F.next F.beta)[i] - F.beta[i]| ≤ _
  rw [F.getElem_next, add_sub_cancel_left, Dense.dot_eq_sum]
  exact abs_sum_mul_le F.alpha (Dense.abs_le_maxAbs F.beta) i

/-- So the changes fall at least geometrically. -/
theorem changeAt_le_pow (F : FixedPoint Rat n) (k : Nat) :
    F.changeAt k ≤ infNorm F.alpha ^ (k + 1) * Dense.maxAbs F.beta := by
  induction k with
  | zero => simpa using F.changeAt_zero_le
  | succ k ih =>
    calc F.changeAt (k + 1) ≤ infNorm F.alpha * F.changeAt k := F.changeAt_succ_le k
      _ ≤ infNorm F.alpha * (infNorm F.alpha ^ (k + 1) * Dense.maxAbs F.beta) :=
        mul_le_mul_of_nonneg_left ih (infNorm_nonneg _)
      _ = infNorm F.alpha ^ (k + 1 + 1) * Dense.maxAbs F.beta := by ring

/-- With a norm below one there is at most one fixed point. -/
theorem eq_of_next_eq_self (hq : infNorm F.alpha < 1) {x y : Vector Rat n} (hx : F.next x = x)
    (hy : F.next y = y) : x = y := by
  have hchange : change x y ≤ infNorm F.alpha * change x y := by
    apply change_le (mul_nonneg (infNorm_nonneg _) (change_nonneg _ _))
    have hstep := F.abs_next_sub_next_le (abs_sub_le_change x y)
    rwa [hx, hy] at hstep
  have hzero : change x y ≤ 0 := by
    by_contra hpos
    have := mul_lt_of_lt_one_left (not_le.mp hpos) hq
    linarith
  apply Vector.ext
  intro i hi
  have hentry := (abs_sub_le_change x y ⟨i, hi⟩).trans hzero
  exact sub_eq_zero.mp (abs_eq_zero.mp (le_antisymm hentry (abs_nonneg _)))

/-- With a norm below one the change of a step bounds how far its result is from the fixed point. -/
theorem abs_iterateAt_sub_le (hq : infNorm F.alpha < 1) {x : Vector Rat n} (hx : F.next x = x)
    (k : Nat) (i : Fin n) :
    |(F.iterateAt (k + 1))[i] - x[i]| ≤
      infNorm F.alpha / (1 - infNorm F.alpha) * F.changeAt k := by
  have hbefore (j : Fin n) : |(F.iterateAt k)[j] - x[j]| ≤
      F.changeAt k + change (F.iterateAt (k + 1)) x := by
    calc |(F.iterateAt k)[j] - x[j]|
        ≤ |(F.iterateAt k)[j] - (F.iterateAt (k + 1))[j]| + |(F.iterateAt (k + 1))[j] - x[j]| :=
          abs_sub_le _ _ _
      _ ≤ F.changeAt k + change (F.iterateAt (k + 1)) x := by
          rw [abs_sub_comm (F.iterateAt k)[j]]
          exact add_le_add (abs_sub_le_change _ _ j) (abs_sub_le_change _ _ j)
  -- The distance stands on both sides, and on the right with a factor below one.
  have hdistance : change (F.iterateAt (k + 1)) x ≤
      infNorm F.alpha * (F.changeAt k + change (F.iterateAt (k + 1)) x) := by
    apply change_le (mul_nonneg (infNorm_nonneg _)
      (add_nonneg (change_nonneg _ _) (change_nonneg _ _)))
    intro j
    have hstep := F.abs_next_sub_next_le hbefore j
    rwa [hx] at hstep
  refine (abs_sub_le_change _ _ i).trans ?_
  rw [div_mul_eq_mul_div, le_div_iff₀ (sub_pos.mpr hq)]
  linarith

end FixedPoint

/-- With a norm below one a run that may make as many steps as bring the bound of the changes below
    the tolerance converges within them. -/
theorem converged_of_pow_lt {F : FixedPoint Rat n} {tolerance : Rat} {m budget : Nat} (hm : 1 ≤ m)
    (hbound : infNorm F.alpha ^ m * Dense.maxAbs F.beta < tolerance) (hbudget : m ≤ budget) :
    (iterate F tolerance budget).converged = true ∧
      (iterate F tolerance budget).iterations ≤ m - 1 := by
  obtain ⟨k, rfl⟩ : ∃ k, m = k + 1 := ⟨m - 1, by omega⟩
  have hsmall : Scalar.less (F.changeAt k) tolerance = true :=
    Scalar.less_rat_eq_true_iff.mpr ((F.changeAt_le_pow k).trans_lt hbound)
  exact converged_of_less (Nat.lt_of_succ_le hbudget) hsmall

/-- In exact arithmetic every system whose diagonal passes its test has a fixed-point form, and if
    the norm of `alpha` is below one: the system has one solution; each change that the iteration
    computes is at most the norm times the one before it; a run that makes a step at all ends no
    further from the solution than the norm over its distance from one, times the last change; and
    if the norm to the power of `m` brings the largest magnitude in `beta` below the tolerance, every
    run that may make `m` steps converges and counts fewer than `m`. -/
theorem iterate_contracts {t : Rat} (ht : 0 < t) {A : Dense Rat n n}
    (hdiagonal : ∀ i : Fin n, t ≤ |A[i][i]|) (b : Vector Rat n) :
    ∃ F, toFixedPoint t A b = .ok F ∧ (infNorm F.alpha < 1 →
      (∃! x, Dense.IsSolution (Dense.glue A b) x) ∧
      (∀ k, F.changeAt (k + 1) ≤ infNorm F.alpha * F.changeAt k) ∧
      (∀ (tolerance : Rat) (m : Nat), 0 < m →
        ∃ k < m, (iterate F tolerance m).lastDifference = some (F.changeAt k) ∧
          ∀ x, Dense.IsSolution (Dense.glue A b) x → ∀ i : Fin n,
            |(iterate F tolerance m).x[i] - x[i]| ≤
              infNorm F.alpha / (1 - infNorm F.alpha) * F.changeAt k) ∧
      ∀ (tolerance : Rat) (m : Nat), 1 ≤ m →
        infNorm F.alpha ^ m * Dense.maxAbs F.beta < tolerance →
        ∀ budget, m ≤ budget → (iterate F tolerance budget).converged = true ∧
          (iterate F tolerance budget).iterations ≤ m - 1) := by
  have hpassed (i : Fin n) : Scalar.isBelow t A[i][i] = false :=
    Scalar.isBelow_rat_eq_false_iff.mpr (hdiagonal i)
  have hne (i : Fin n) : A[i][i] ≠ 0 := Scalar.ne_zero_of_isBelow_eq_false ht (hpassed i)
  have hfixed (b x : Vector Rat n) := next_divide_eq_self_iff hne b x
  refine ⟨_, toFixedPoint_eq_ok_iff.mpr ⟨hpassed, rfl⟩, fun hq => ?_⟩
  refine ⟨?_, FixedPoint.changeAt_succ_le _, ?_, ?_⟩
  · apply Dense.existsUnique_isSolution
    intro c x y hx hy
    -- The norm does not depend on the right-hand side.
    have hqc : infNorm (FixedPoint.divide A c).alpha < 1 := hq
    exact FixedPoint.eq_of_next_eq_self hqc ((hfixed c x).mpr hx) ((hfixed c y).mpr hy)
  · intro tolerance m hm
    obtain ⟨k, hk, hx, hlast⟩ := exists_last_step (FixedPoint.divide A b) tolerance hm
    refine ⟨k, hk, hlast, fun x hsolution i => ?_⟩
    rw [hx]
    exact FixedPoint.abs_iterateAt_sub_le hq ((hfixed b x).mpr hsolution) k i
  · intro tolerance m hm hbound budget hbudget
    exact converged_of_pow_lt hm hbound hbudget

/-- The norm of `alpha` is a third here, so three steps are enough to change less than a tenth. -/
theorem iterate_contracts_two_rows :
    ∃ F : FixedPoint Rat 2,
      toFixedPoint (1 / 1000000) #v[#v[4, 1], #v[1, 3]] #v[1, 2] = .ok F ∧ infNorm F.alpha < 1 ∧
        (∃! x, Dense.IsSolution (Dense.glue #v[#v[4, 1], #v[1, 3]] #v[1, 2]) x) ∧
        (∃ k < 2, (iterate F 0 2).lastDifference = some (F.changeAt k) ∧
          ∀ x, Dense.IsSolution (Dense.glue #v[#v[4, 1], #v[1, 3]] #v[1, 2]) x → ∀ i : Fin 2,
            |(iterate F 0 2).x[i] - x[i]| ≤
              infNorm F.alpha / (1 - infNorm F.alpha) * F.changeAt k) ∧
        (iterate F (1 / 10) 5).converged = true ∧ (iterate F (1 / 10) 5).iterations ≤ 2 := by
  have hform : toFixedPoint (1 / 1000000 : Rat) #v[#v[4, 1], #v[1, 3]] #v[1, 2] =
      .ok ⟨#v[#v[0, -1 / 4], #v[-1 / 3, 0]], #v[1 / 4, 2 / 3]⟩ := by cbv
  have hnorm : infNorm (#v[#v[0, -1 / 4], #v[-1 / 3, 0]] : Dense Rat 2 2) = 1 / 3 := by cbv
  have hbeta : Dense.maxAbs (#v[1 / 4, 2 / 3] : Vector Rat 2) = 2 / 3 := by cbv
  have hdiagonal : ∀ i : Fin 2,
      (1 / 1000000 : Rat) ≤ |(#v[#v[4, 1], #v[1, 3]] : Dense Rat 2 2)[i][i]| := by
    decide +kernel
  obtain ⟨F, hF, hcontracts⟩ := iterate_contracts (by norm_num) hdiagonal #v[1, 2]
  obtain rfl := Except.ok.inj (hF.symm.trans hform)
  have hq : infNorm (#v[#v[0, -1 / 4], #v[-1 / 3, 0]] : Dense Rat 2 2) < 1 := by
    rw [hnorm]
    norm_num
  obtain ⟨hsolution, -, hdistance, hconverged⟩ := hcontracts hq
  refine ⟨_, hF, hq, hsolution, hdistance 0 2 (by norm_num), ?_⟩
  exact hconverged (1 / 10) 3 (by norm_num) (by rw [hnorm, hbeta]; norm_num) 5 (by norm_num)

end LinearSystems.Jacobi
