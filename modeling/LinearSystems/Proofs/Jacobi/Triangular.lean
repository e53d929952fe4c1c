import Mathlib
import LinearSystems.Proofs.Jacobi.Contraction

/-!
# Triangular systems

If the unknowns have ranks such that every row of `alpha` takes in unknowns of smaller ranks alone,
then an unknown is settled after as many steps as its rank: what it depends on does not change any
more. In exact arithmetic a step that finds all unknowns settled changes nothing, so the iteration
converges there for every tolerance, however large the norm of `alpha` is. The unknowns of a
triangular system are ranked by their place, from one end or from the other, and those of a diagonal
system are all of rank zero.
-/

namespace LinearSystems

namespace Dense

variable {n : Nat}

/-- All entries above the diagonal are zero. -/
def IsLower (A : Dense Rat n n) : Prop :=
  ∀ i j : Fin n, i < j → A[i][j] = 0

/-- All entries below the diagonal are zero. -/
def IsUpper (A : Dense Rat n n) : Prop :=
  ∀ i j : Fin n, j < i → A[i][j] = 0

/-- All entries beside the diagonal are zero. -/
def IsDiagonal (A : Dense Rat n n) : Prop :=
  ∀ i j : Fin n, i ≠ j → A[i][j] = 0

end Dense

namespace Jacobi

variable {n : Nat}

namespace FixedPoint

variable {F : FixedPoint Rat n} {rank : Fin n → Nat}

/-- The rows take in unknowns of smaller ranks alone. -/
def RankedBy (F : FixedPoint Rat n) (rank : Fin n → Nat) : Prop :=
  ∀ i j : Fin n, F.alpha[i][j] ≠ 0 → rank j < rank i

/-- A component of a step depends on the components alone that its row takes in. -/
theorem getElem_next_congr (F : FixedPoint Rat n) {x y : Vector Rat n} {i : Fin n}
    (h : ∀ j : Fin n, F.alpha[i][j] ≠ 0 → x[j] = y[j]) : (F.next x)[i] = (F.next y)[i] := by
  rw [F.getElem_next, F.getElem_next, Dense.dot_eq_sum, Dense.dot_eq_sum]
  congr 1
  apply Finset.sum_congr rfl
  intro j _
  by_cases hj : F.alpha[i][j] = 0
  · rw [hj, zero_mul, zero_mul]
  · rw [h j hj]

/-- A row that takes in nothing gives its entry of `beta`. -/
theorem getElem_next_of_alpha_eq_zero (F : FixedPoint Rat n) (x : Vector Rat n) {i : Fin n}
    (h : ∀ j : Fin n, F.alpha[i][j] = 0) : (F.next x)[i] = F.beta[i] := by
  rw [F.getElem_next, Dense.dot_eq_sum, Finset.sum_eq_zero, add_zero]
  intro j _
  rw [h j, zero_mul]

/-- An unknown is settled after as many steps as its rank. -/
theorem RankedBy.settled (h : F.RankedBy rank) {k : Nat} {i : Fin n} (hi : rank i ≤ k) :
    (F.iterateAt (k + 1))[i] = (F.iterateAt k)[i] := by
  -- On the steps: one step fewer has settled all that the row takes in.
  induction k generalizing i with
  | zero =>
    apply F.getElem_next_of_alpha_eq_zero
    intro j
    by_contra hj
    have := h i j hj
    omega
  | succ k ih =>
    apply F.getElem_next_congr
    intro j hj
    have := h i j hj
    exact ih (by omega)

/-- A step changes nothing once it has been made as often as the greatest rank says. -/
theorem RankedBy.changeAt_eq_zero (h : F.RankedBy rank) {k : Nat} (hk : ∀ i, rank i ≤ k) :
    F.changeAt k = 0 := by
  apply le_antisymm _ (change_nonneg _ _)
  apply change_le (le_refl 0)
  intro i
  rw [h.settled (hk i), sub_self, abs_zero]

/-- So a run that may make that step converges at the latest with it. -/
theorem RankedBy.converged (h : F.RankedBy rank) {k budget : Nat} (hk : ∀ i, rank i ≤ k)
    (hbudget : k < budget) {tolerance : Rat} (htolerance : 0 < tolerance) :
    (iterate F tolerance budget).converged = true ∧
      (iterate F tolerance budget).iterations ≤ k := by
  apply converged_of_less hbudget
  rw [Scalar.less_rat_eq_true_iff, h.changeAt_eq_zero hk]
  exact htolerance

end FixedPoint

section

variable {A : Dense Rat n n} (b : Vector Rat n)

/-- An entry of `alpha` stands beside the diagonal, where the matrix has an entry. -/
theorem alpha_divide_ne_zero {i j : Fin n} (h : (FixedPoint.divide A b).alpha[i][j] ≠ 0) :
    i ≠ j ∧ A[i][j] ≠ 0 := by
  rw [FixedPoint.getElem_alpha_divide] at h
  constructor
  · intro hij
    exact h (if_pos hij)
  · intro hzero
    apply h
    rw [hzero, neg_zero, zero_div, ite_self]

theorem rankedBy_of_isLower (h : A.IsLower) :
    (FixedPoint.divide A b).RankedBy fun i => i.val := by
  intro i j hij
  obtain ⟨hne, hentry⟩ := alpha_divide_ne_zero b hij
  have hnot : ¬ i < j := fun hlt => hentry (h i j hlt)
  show j < i
  omega

theorem rankedBy_of_isUpper (h : A.IsUpper) :
    (FixedPoint.divide A b).RankedBy fun i => n - 1 - i.val := by
  intro i j hij
  obtain ⟨hne, hentry⟩ := alpha_divide_ne_zero b hij
  have hnot : ¬ j < i := fun hlt => hentry (h i j hlt)
  have hlt : i < j := by omega
  show n - 1 - j.val < n - 1 - i.val
  omega

theorem rankedBy_of_isDiagonal (h : A.IsDiagonal) :
    (FixedPoint.divide A b).RankedBy fun _ => 0 := by
  intro i j hij
  obtain ⟨hne, hentry⟩ := alpha_divide_ne_zero b hij
  exact absurd (h i j hne) hentry

/-- A triangular system is ranked, with ranks below the number of its unknowns. -/
theorem exists_rankedBy (h : A.IsLower ∨ A.IsUpper) :
    ∃ rank, (FixedPoint.divide A b).RankedBy rank ∧ ∀ i, rank i ≤ n - 1 := by
  rcases h with hlower | hupper
  · refine ⟨_, rankedBy_of_isLower b hlower, ?_⟩
    intro i
    omega
  · refine ⟨_, rankedBy_of_isUpper b hupper, ?_⟩
    intro i
    omega

/-- The iterate of a diagonal system is `beta` from the start, and it is the quotient of the
    right-hand side by the diagonal. -/
theorem getElem_iterateAt_of_isDiagonal (h : A.IsDiagonal) (k : Nat) (i : Fin n) :
    ((FixedPoint.divide A b).iterateAt k)[i] = b[i] / A[i][i] := by
  induction k with
  | zero => exact FixedPoint.getElem_beta_divide A b i
  | succ k ih => rw [← ih, (rankedBy_of_isDiagonal b h).settled (Nat.zero_le k)]

end

/-- In exact arithmetic, for every lower or upper triangular system whose diagonal passes its test,
    every right-hand side and every positive tolerance: a run that may make as many steps as there
    are unknowns converges and counts fewer steps than that, whatever the norm of `alpha` is. If the
    matrix is diagonal, the run counts no step and answers with the quotients of the right-hand side
    by the diagonal. -/
theorem triangular_converges {t : Rat} (hn : 0 < n) {A : Dense Rat n n}
    (htriangular : A.IsLower ∨ A.IsUpper) (hdiagonal : ∀ i : Fin n, t ≤ |A[i][i]|)
    (b : Vector Rat n) {tolerance : Rat} (htolerance : 0 < tolerance) {budget : Nat}
    (hbudget : n ≤ budget) :
    ∃ F, toFixedPoint t A b = .ok F ∧
      (iterate F tolerance budget).converged = true ∧
      (iterate F tolerance budget).iterations ≤ n - 1 ∧
      (A.IsDiagonal → (iterate F tolerance budget).iterations = 0 ∧
        ∀ i : Fin n, (iterate F tolerance budget).x[i] = b[i] / A[i][i]) := by
  have hlast : n - 1 < budget := by omega
  have hpos : 0 < budget := by omega
  obtain ⟨rank, hrank, hrank_le⟩ := exists_rankedBy b htriangular
  obtain ⟨hconverged, hiterations⟩ := hrank.converged hrank_le hlast htolerance
  refine ⟨_, toFixedPoint_eq_divide hdiagonal b, hconverged, hiterations, ?_⟩
  intro hA
  have hzero := (rankedBy_of_isDiagonal b hA).converged (fun _ => le_refl 0) hpos htolerance
  refine ⟨Nat.le_zero.mp hzero.2, ?_⟩
  intro i
  obtain ⟨k, -, hx, -⟩ := exists_last_step (FixedPoint.divide A b) tolerance hpos
  rw [hx]
  exact getElem_iterateAt_of_isDiagonal b hA (k + 1) i

/-- The norm of `alpha` is a thousand here, and the run ends after at most one counted step; the run
    on a diagonal system counts none. -/
theorem triangular_converges_two_rows :
    (∃ F : FixedPoint Rat 2, toFixedPoint (1 / 1000000) #v[#v[1, 1000], #v[0, 2]] #v[3, 4] = .ok F ∧
      infNorm F.alpha = 1000 ∧
      (iterate F (1 / 1000) 2).converged = true ∧ (iterate F (1 / 1000) 2).iterations ≤ 1) ∧
    ∃ F : FixedPoint Rat 2, toFixedPoint (1 / 1000000) #v[#v[2, 0], #v[0, -4]] #v[3, 4] = .ok F ∧
      (iterate F (1 / 1000) 2).iterations = 0 ∧
      ∀ i : Fin 2, (iterate F (1 / 1000) 2).x[i] = (#v[3 / 2, -1] : Vector Rat 2)[i] := by
  have hupper : Dense.IsUpper (#v[#v[1, 1000], #v[0, 2]] : Dense Rat 2 2) := by
    unfold Dense.IsUpper
    decide +kernel
  have hdiagonal : Dense.IsDiagonal (#v[#v[2, 0], #v[0, -4]] : Dense Rat 2 2) := by
    unfold Dense.IsDiagonal
    decide +kernel
  have hpassed : ∀ i : Fin 2,
      (1 / 1000000 : Rat) ≤ |(#v[#v[1, 1000], #v[0, 2]] : Dense Rat 2 2)[i][i]| := by
    decide +kernel
  have hpassed' : ∀ i : Fin 2,
      (1 / 1000000 : Rat) ≤ |(#v[#v[2, 0], #v[0, -4]] : Dense Rat 2 2)[i][i]| := by
    decide +kernel
  have hquotients : ∀ i : Fin 2, (#v[3, 4] : Vector Rat 2)[i] /
      (#v[#v[2, 0], #v[0, -4]] : Dense Rat 2 2)[i][i] = (#v[3 / 2, -1] : Vector Rat 2)[i] := by
    decide +kernel
  have htolerance : (0 : Rat) < 1 / 1000 := by norm_num
  constructor
  · obtain ⟨F, hF, hconverged, hiterations, -⟩ := triangular_converges Nat.two_pos (.inr hupper)
      hpassed #v[3, 4] htolerance (Nat.le_refl 2)
    have hform : toFixedPoint (1 / 1000000 : Rat) #v[#v[1, 1000], #v[0, 2]] #v[3, 4] =
        .ok ⟨#v[#v[0, -1000], #v[0, 0]], #v[3, 2]⟩ := by
      cbv
    obtain rfl := Except.ok.inj (hF.symm.trans hform)
    exact ⟨_, hF, by cbv, hconverged, hiterations⟩
  · obtain ⟨F, hF, -, -, hanswer⟩ := triangular_converges Nat.two_pos
      (.inr fun i j hij => hdiagonal i j (ne_of_gt hij)) hpassed' #v[3, 4] htolerance
      (Nat.le_refl 2)
    obtain ⟨hiterations, hx⟩ := hanswer hdiagonal
    exact ⟨F, hF, hiterations, fun i => (hx i).trans (hquotients i)⟩

end Jacobi

end LinearSystems
