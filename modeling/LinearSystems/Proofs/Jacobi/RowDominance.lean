import Mathlib
import LinearSystems.Proofs.Jacobi.FixedPoint
import LinearSystems.Proofs.Jacobi.RowSum

/-!
# The convergence condition as dominance

The condition that a run compares is one on `alpha`. In exact arithmetic it is one on the matrix
that was given: a row of `alpha` adds up to what stands beside the diagonal entry, measured by the
diagonal entry, so the norm of `alpha` is below one exactly if every diagonal entry exceeds the
other entries of its row together.
-/

namespace LinearSystems.Jacobi

variable {n : Nat}

/-- The magnitudes in a row of `alpha` are those beside the diagonal entry, divided by it. -/
theorem sum_abs_alpha_divide (A : Dense Rat n n) (b : Vector Rat n) (i : Fin n) :
    ∑ j : Fin n, |(FixedPoint.divide A b).alpha[i][j]| = A.offDiagonal i / |A[i][i]| := by
  have hself : |(FixedPoint.divide A b).alpha[i][i]| = 0 := by
    simp only [FixedPoint.divide, Dense.getElem_ofFn, if_true, abs_zero]
  rw [sum_eq_add_sum_ne _ i, hself, zero_add, Dense.offDiagonal, Finset.sum_div]
  apply Finset.sum_congr rfl
  intro j hj
  have hne : i ≠ j := (Finset.mem_filter.mp hj).2.symm
  simp only [FixedPoint.divide, Dense.getElem_ofFn, if_neg hne, abs_div, abs_neg]

/-- The norm of a matrix with at least one row is the largest of the sums of magnitudes of its
    rows. -/
theorem infNorm_eq_sup' {m : Nat} (hm : 0 < m) (A : Dense Rat m n) :
    infNorm A =
      Finset.univ.sup' ⟨⟨0, hm⟩, Finset.mem_univ _⟩ fun i : Fin m => ∑ j : Fin n, |A[i][j]| := by
  apply le_antisymm
  · have hrow (i : Fin m) := Finset.le_sup' (fun i : Fin m => ∑ j : Fin n, |A[i][j]|)
      (Finset.mem_univ i)
    apply infNorm_le _ hrow
    exact (Finset.sum_nonneg fun j _ => abs_nonneg _).trans (hrow ⟨0, hm⟩)
  · apply Finset.sup'_le
    intro i _
    exact sum_abs_le_infNorm A i

/-- In exact arithmetic, for every system whose diagonal passes its test: the norm of `alpha` is the
    largest quotient of what stands beside the diagonal entry of a row, and this entry, in magnitude;
    and the condition that a run compares, a norm below one, is met exactly if in every row the
    diagonal entry exceeds the other entries together. The row sums behind the norm add every term of
    a row exactly once, whatever its length is and in every arithmetic. -/
theorem condition_met_iff_dominant {t : Rat} (ht : 0 < t) (hn : 0 < n) {A : Dense Rat n n}
    (hdiagonal : ∀ i : Fin n, t ≤ |A[i][i]|) (b : Vector Rat n) :
    (∃ F, toFixedPoint t A b = .ok F ∧
      infNorm F.alpha = Finset.univ.sup' ⟨⟨0, hn⟩, Finset.mem_univ _⟩
        (fun i : Fin n => A.offDiagonal i / |A[i][i]|) ∧
      (Scalar.less (infNorm F.alpha) 1 = true ↔ ∀ i : Fin n, A.offDiagonal i < |A[i][i]|)) ∧
    ∀ (α : Type) [Scalar α] (row : List α), AddsOnce ↑row (pairwiseSum row) := by
  refine ⟨?_, fun α _ row => addsOnce_pairwiseSum row⟩
  have hpassed (i : Fin n) : Scalar.isBelow t A[i][i] = false :=
    Scalar.isBelow_rat_eq_false_iff.mpr (hdiagonal i)
  have hpos (i : Fin n) : 0 < |A[i][i]| := ht.trans_le (hdiagonal i)
  have hnorm : infNorm (FixedPoint.divide A b).alpha = Finset.univ.sup'
      ⟨⟨0, hn⟩, Finset.mem_univ _⟩ (fun i : Fin n => A.offDiagonal i / |A[i][i]|) := by
    simp only [infNorm_eq_sup' hn, sum_abs_alpha_divide]
  refine ⟨_, toFixedPoint_eq_ok_iff.mpr ⟨hpassed, rfl⟩, hnorm, ?_⟩
  rw [Scalar.less_rat_eq_true_iff, hnorm]
  refine (Finset.sup'_lt_iff _).trans ?_
  constructor
  · intro h i
    exact (div_lt_one (hpos i)).mp (h i (Finset.mem_univ i))
  · intro h i _
    exact (div_lt_one (hpos i)).mpr (h i)

/-- In the first system the second row leaves nothing to spare, and the norm is one; in the second
    system every row has something to spare. -/
theorem condition_met_iff_dominant_two_rows :
    (∃ F : FixedPoint Rat 2, toFixedPoint (1 / 1000000) #v[#v[4, 1], #v[3, -3]] #v[1, 2] = .ok F ∧
      infNorm F.alpha = 1 ∧ Scalar.less (infNorm F.alpha) 1 = false) ∧
    ∃ F : FixedPoint Rat 2, toFixedPoint (1 / 1000000) #v[#v[4, 1], #v[2, -3]] #v[1, 2] = .ok F ∧
      Scalar.less (infNorm F.alpha) 1 = true := by
  have ht : (0 : Rat) < 1 / 1000000 := by norm_num
  have hfirst : ∀ i : Fin 2,
      (1 / 1000000 : Rat) ≤ |(#v[#v[4, 1], #v[3, -3]] : Dense Rat 2 2)[i][i]| := by
    decide +kernel
  have hsecond : ∀ i : Fin 2,
      (1 / 1000000 : Rat) ≤ |(#v[#v[4, 1], #v[2, -3]] : Dense Rat 2 2)[i][i]| := by
    decide +kernel
  have hspare : ∀ i : Fin 2, Dense.offDiagonal #v[#v[4, 1], #v[2, -3]] i <
      |(#v[#v[4, 1], #v[2, -3]] : Dense Rat 2 2)[i][i]| := by
    decide +kernel
  obtain ⟨⟨F, hF, hnorm, -⟩, -⟩ := condition_met_iff_dominant ht Nat.two_pos hfirst #v[1, 2]
  obtain ⟨⟨G, hG, -, hmet⟩, -⟩ := condition_met_iff_dominant ht Nat.two_pos hsecond #v[1, 2]
  have hone : infNorm F.alpha = 1 := by
    rw [hnorm]
    decide +kernel
  refine ⟨⟨F, hF, hone, ?_⟩, G, hG, hmet.mpr hspare⟩
  rw [hone]
  exact Scalar.less_irrefl 1

end LinearSystems.Jacobi
