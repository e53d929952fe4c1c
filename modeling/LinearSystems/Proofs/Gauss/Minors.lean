import Mathlib
import LinearSystems.Gauss.Solution
import LinearSystems.Proofs.Gauss.Factorization

/-!
# Pivots and leading minors

In exact arithmetic the pivots of plain elimination are the quotients of successive leading minors
of the system. So the matrices on which it succeeds, the step at which it stops on the others and
the value that it then finds too small can be told from the minors alone. With complete pivoting the
order of the rows and columns changes, and the product of the pivots still has the magnitude of the
determinant.
-/

namespace LinearSystems

namespace Dense

variable {n : Nat}

/-- The determinant of the first `k` rows and columns of the coefficients. -/
def leadingMinor (M : Dense Rat n (n + 1)) (k : Nat) (hk : k ≤ n) : Rat :=
  (M.coefficientMatrix.submatrix (Fin.castLE hk) (Fin.castLE hk)).det

@[simp]
theorem leadingMinor_zero (M : Dense Rat n (n + 1)) (h : 0 ≤ n) : M.leadingMinor 0 h = 1 :=
  Matrix.det_fin_zero

theorem leadingMinor_self (M : Dense Rat n (n + 1)) (h : n ≤ n) :
    M.leadingMinor n h = M.coefficientMatrix.det := rfl

end Dense

namespace Gauss

variable {n : Nat} {t : Rat} {M : Dense Rat n (n + 1)}

namespace Factors

variable {W : Dense Rat n (n + 1)} {k : Nat} {C : Matrix (Fin n) (Fin n) Rat}

/-- A leading block of the system is factored by the leading blocks of the factors. -/
theorem submatrix_eq (h : Factors M k W C) {j : Nat} (hj : j ≤ n) :
    M.coefficientMatrix.submatrix (Fin.castLE hj) (Fin.castLE hj) =
      (1 + C.submatrix (Fin.castLE hj) (Fin.castLE hj)) *
        W.coefficientMatrix.submatrix (Fin.castLE hj) (Fin.castLE hj) := by
  ext a b
  rw [Matrix.submatrix_apply, h.apply_eq, Matrix.add_mul, Matrix.one_mul, Matrix.add_apply,
    Matrix.mul_apply]
  congr 1
  symm
  -- Multiples are of rows before the row that loses them, so those of a block lie in the block.
  refine Fintype.sum_of_injective (Fin.castLE hj) (Fin.castLE_injective hj) _ _ ?_ fun m => rfl
  intro m hm
  have hout : ¬ m.val < j := fun hlt => hm ⟨⟨m.val, hlt⟩, rfl⟩
  have hafter : ¬ (m < Fin.castLE hj a ∧ m.val < k) := by
    rintro ⟨hlt, -⟩
    exact hout (Nat.lt_trans hlt a.isLt)
  rw [h.eq_zero _ _ hafter, zero_mul]

theorem det_one_add_submatrix (h : Factors M k W C) {j : Nat} (hj : j ≤ n) :
    (1 + C.submatrix (Fin.castLE hj) (Fin.castLE hj)).det = 1 := by
  have hzero {a b : Fin j} (hab : ¬ b < a) :
      C.submatrix (Fin.castLE hj) (Fin.castLE hj) a b = 0 :=
    h.eq_zero _ _ fun hboth => hab hboth.1
  rw [Matrix.det_of_isLowerTriangular]
  · apply Finset.prod_eq_one
    intro a _
    rw [Matrix.add_apply, Matrix.one_apply_eq, hzero (lt_irrefl a), add_zero]
  · intro a b hab
    have hlt : a < b := hab
    rw [Matrix.add_apply, Matrix.one_apply_ne hlt.ne, hzero hlt.not_gt, add_zero]

/-- The leading minors up to the next step are products of the diagonal of the working matrix. -/
theorem leadingMinor_eq_prod (h : Factors M k W C) (hcleared : Cleared W k) {j : Nat} (hj : j ≤ n)
    (hjk : j ≤ k + 1) :
    M.leadingMinor j hj = ∏ i : Fin j, W[Fin.castLE hj i][(Fin.castLE hj i).castSucc] := by
  rw [Dense.leadingMinor, h.submatrix_eq hj, Matrix.det_mul, h.det_one_add_submatrix hj, one_mul,
    Matrix.det_of_isUpperTriangular]
  · exact Finset.prod_congr rfl fun i _ => W.coefficientMatrix_apply _ _
  · intro a b hab
    have hlt : b.val < a.val := hab
    rw [Matrix.submatrix_apply, Dense.coefficientMatrix_apply]
    exact hcleared _ _ (by show b.val < k; omega) hlt

end Factors

section

variable {k : Nat} {hk : k < n} {P : Progress Rat n}

theorem leadingMinor_ne_zero {k : Nat} {hk : k ≤ n} {P : Progress Rat n} (ht : 0 < t)
    (hP : Progress.after .diagonal t M k hk = .ok P) : M.leadingMinor k hk ≠ 0 := by
  obtain ⟨C, hfactors⟩ := exists_factors_of_after ht hP
  have hreduces := reduces_of_after ht hP
  rw [hfactors.leadingMinor_eq_prod hreduces.cleared hk (Nat.le_succ k)]
  exact Finset.prod_ne_zero_iff.mpr fun i _ => hreduces.diagonal_ne_zero _ i.isLt

/-- The pivot that the next step tests takes one leading minor to the next. -/
theorem leadingMinor_succ (ht : 0 < t)
    (hP : Progress.after .diagonal t M k (Nat.le_of_lt hk) = .ok P) :
    M.leadingMinor (k + 1) hk =
      M.leadingMinor k (Nat.le_of_lt hk) * P.pivotAt .diagonal ⟨k, hk⟩ := by
  obtain ⟨C, hfactors⟩ := exists_factors_of_after ht hP
  have hcleared := (reduces_of_after ht hP).cleared
  rw [hfactors.leadingMinor_eq_prod hcleared hk le_rfl, Fin.prod_univ_castSucc,
    hfactors.leadingMinor_eq_prod hcleared (Nat.le_of_lt hk) (Nat.le_succ k)]
  rfl

theorem pivotAt_eq_div (ht : 0 < t)
    (hP : Progress.after .diagonal t M k (Nat.le_of_lt hk) = .ok P) :
    P.pivotAt .diagonal ⟨k, hk⟩ =
      M.leadingMinor (k + 1) hk / M.leadingMinor k (Nat.le_of_lt hk) := by
  rw [leadingMinor_succ ht hP, mul_div_cancel_left₀ _ (leadingMinor_ne_zero ht hP)]

/-- The next pivot passes its test exactly if the leading minors do not fall too fast there. -/
theorem isBelow_pivotAt_eq_false_iff (ht : 0 < t)
    (hP : Progress.after .diagonal t M k (Nat.le_of_lt hk) = .ok P) :
    Scalar.isBelow t (P.pivotAt .diagonal ⟨k, hk⟩) = false ↔
      t * |M.leadingMinor k (Nat.le_of_lt hk)| ≤ |M.leadingMinor (k + 1) hk| := by
  have hpos := abs_pos.mpr (leadingMinor_ne_zero ht hP)
  rw [Scalar.isBelow_rat_eq_false_iff, leadingMinor_succ ht hP, abs_mul,
    mul_comm |M.leadingMinor k _|, mul_le_mul_iff_left₀ hpos]

end

/-- The first `k` steps go through exactly if the first `k` leading minors allow it. -/
theorem exists_after_eq_ok_iff (ht : 0 < t) (M : Dense Rat n (n + 1)) {k : Nat} (hk : k ≤ n) :
    (∃ P, Progress.after .diagonal t M k hk = .ok P) ↔
      ∀ (j : Nat) (hj : j < k), t * |M.leadingMinor j (Nat.le_of_lt (Nat.lt_of_lt_of_le hj hk))| ≤
        |M.leadingMinor (j + 1) (Nat.lt_of_lt_of_le hj hk)| := by
  induction k with
  | zero => exact ⟨fun _ j hj => absurd hj (Nat.not_lt_zero j), fun _ => ⟨_, rfl⟩⟩
  | succ k ih =>
    constructor
    · rintro ⟨P, hP⟩ j hj
      obtain ⟨Q, hQ, hpivot, -⟩ := Progress.after_succ_eq_ok_iff.mp hP
      rcases Nat.lt_or_eq_of_le (Nat.le_of_lt_succ hj) with hlt | rfl
      · exact (ih _).mp ⟨Q, hQ⟩ j hlt
      · exact (isBelow_pivotAt_eq_false_iff ht hQ).mp hpivot
    · intro h
      obtain ⟨Q, hQ⟩ := (ih (Nat.le_of_succ_le hk)).mpr fun j hj => h j (by omega)
      have hpivot := (isBelow_pivotAt_eq_false_iff ht hQ).mpr (h k (Nat.lt_succ_self k))
      exact ⟨_, Progress.after_succ_eq_ok_iff.mpr ⟨Q, hQ, hpivot, rfl⟩⟩

/-- The pivots of a finished run are the quotients of successive leading minors. -/
theorem pivots_eq_ofFn (ht : 0 < t) {P : Progress Rat n} (hP : eliminate .diagonal t M = .ok P) :
    P.pivots = List.ofFn fun i : Fin n =>
      M.leadingMinor (i + 1) i.isLt / M.leadingMinor i (Nat.le_of_lt i.isLt) := by
  rw [Progress.pivots_eq_diagonal hP]
  congr 1
  funext i
  obtain ⟨Q, hQ, -, hdiagonal, -⟩ := Progress.exists_pivotAt_of_after hP i.isLt
  rw [hdiagonal, pivotAt_eq_div ht hQ]

theorem prod_pivots_eq_det (ht : 0 < t) {P : Progress Rat n}
    (hP : eliminate .diagonal t M = .ok P) : P.pivots.prod = M.coefficientMatrix.det := by
  obtain ⟨C, hfactors⟩ := exists_factors_of_after ht hP
  rw [← M.leadingMinor_self le_rfl,
    hfactors.leadingMinor_eq_prod (reduces_of_after ht hP).cleared le_rfl (Nat.le_succ n),
    Progress.pivots_eq_diagonal hP, List.prod_ofFn]
  rfl

/-- With complete pivoting the exchanges may change the sign of the product. -/
theorem abs_prod_pivots_eq_abs_det (ht : 0 < t) {P : Progress Rat n}
    (hP : eliminate .complete t M = .ok P) : |P.pivots.prod| = |M.coefficientMatrix.det| := by
  have hmirror := Progress.mirrors_of_after hP
  have hprod := prod_pivots_eq_det ht hmirror.after_diagonal
  have hpivots : P.inOrder.pivots = P.pivots := rfl
  rw [← hpivots, hprod, Dense.coefficientMatrix_rearranged]
  exact Matrix.abs_det_submatrix_equiv_equiv (rowOrder t M n (Nat.le_refl n))
    (Equiv.ofBijective P.unknown hmirror.unknown_bijective) M.coefficientMatrix

/-- In exact arithmetic, for every system: plain elimination succeeds exactly if no leading minor is
    smaller in magnitude than the threshold times the one before it; its pivots are then the
    quotients of successive minors, and their product is the determinant. On any other system it
    stops at the first minor that is too small, and reports its place and its quotient. With complete
    pivoting the product of the pivots has the magnitude of the determinant. -/
theorem eliminate_by_leading_minors {t : Rat} (ht : 0 < t) (M : Dense Rat n (n + 1)) :
    ((∃ P, eliminate .diagonal t M = .ok P) ↔
      ∀ (k : Nat) (hk : k < n),
        t * |M.leadingMinor k (Nat.le_of_lt hk)| ≤ |M.leadingMinor (k + 1) hk|) ∧
    (∀ P, eliminate .diagonal t M = .ok P →
      P.pivots = List.ofFn (fun i : Fin n =>
        M.leadingMinor (i + 1) i.isLt / M.leadingMinor i (Nat.le_of_lt i.isLt)) ∧
      P.pivots.prod = M.coefficientMatrix.det) ∧
    (∀ b, eliminate .diagonal t M = .error b →
      ∃ (k : Nat) (hk : k < n), (Pivoting.smallDivisor .diagonal b.step).step = k + 1 ∧
        |M.leadingMinor (k + 1) hk| < t * |M.leadingMinor k (Nat.le_of_lt hk)| ∧
        (∀ (j : Nat) (hj : j < k), t * |M.leadingMinor j (Nat.le_of_lt (hj.trans hk))| ≤
          |M.leadingMinor (j + 1) (hj.trans hk)|) ∧
        b.pivot = M.leadingMinor (k + 1) hk / M.leadingMinor k (Nat.le_of_lt hk)) ∧
    ∀ P, eliminate .complete t M = .ok P → |P.pivots.prod| = |M.coefficientMatrix.det| := by
  refine ⟨exists_after_eq_ok_iff ht M (Nat.le_refl n), ?_, ?_, ?_⟩
  · intro P hP
    exact ⟨pivots_eq_ofFn ht hP, prod_pivots_eq_det ht hP⟩
  · intro b hb
    obtain ⟨k, hk, P, hP, hpivot, rfl⟩ := Progress.exists_refused_of_after_eq_error hb
    refine ⟨k, hk, rfl, ?_, (exists_after_eq_ok_iff ht M (Nat.le_of_lt hk)).mp ⟨P, hP⟩,
      pivotAt_eq_div ht hP⟩
    rw [← not_le, ← isBelow_pivotAt_eq_false_iff ht hP, hpivot]
    exact Bool.noConfusion
  · intro P hP
    exact abs_prod_pivots_eq_abs_det ht hP

/-- The leading minors of the first system are 2 and 6. Those of the second one are 1 and 0, which
    is too small for a second pivot. -/
theorem eliminate_by_leading_minors_two_rows :
    (∃ P : Progress Rat 2,
      eliminate .diagonal (1 / 1000000) #v[#v[2, 1, 3], #v[4, 5, 6]] = .ok P ∧
        P.pivots = [2, 3] ∧
        P.pivots.prod = (Dense.coefficientMatrix #v[#v[2, 1, 3], #v[4, 5, 6]]).det) ∧
    (∃ P : Progress Rat 2,
      eliminate .complete (1 / 1000000) #v[#v[2, 1, 3], #v[4, 5, 6]] = .ok P ∧
        |P.pivots.prod| = |(Dense.coefficientMatrix #v[#v[2, 1, 3], #v[4, 5, 6]]).det|) ∧
    ∃ b : Breakdown Rat 2,
      eliminate .diagonal (1 / 1000000) #v[#v[1, 2, 4], #v[2, 4, 11]] = .error b ∧ b.step = 1 ∧
        |Dense.leadingMinor #v[#v[1, 2, 4], #v[2, 4, 11]] 2 (Nat.le_refl 2)| <
          1 / 1000000 * |Dense.leadingMinor #v[#v[1, 2, 4], #v[2, 4, 11]] 1 (Nat.le_succ 1)| := by
  have ht : (0 : Rat) < 1 / 1000000 := by norm_num
  refine ⟨?_, ?_, ?_⟩
  · have hend : (match eliminate .diagonal (1 / 1000000 : Rat) #v[#v[2, 1, 3], #v[4, 5, 6]] with
        | .ok P => P.pivots == [2, 3]
        | .error _ => false) = true := by
      decide +kernel
    split at hend
    · rename_i P hP
      exact ⟨P, hP, eq_of_beq hend, ((eliminate_by_leading_minors ht _).2.1 P hP).2⟩
    · cases hend
  · have hend : (eliminate .complete (1 / 1000000 : Rat) #v[#v[2, 1, 3], #v[4, 5, 6]]).isOk := by
      decide +kernel
    cases hP : eliminate .complete (1 / 1000000 : Rat) #v[#v[2, 1, 3], #v[4, 5, 6]] with
    | ok P => exact ⟨P, rfl, (eliminate_by_leading_minors ht _).2.2.2 P hP⟩
    | error b =>
      rw [hP] at hend
      cases hend
  · have hend : (match eliminate .diagonal (1 / 1000000 : Rat) #v[#v[1, 2, 4], #v[2, 4, 11]] with
        | .ok _ => false
        | .error b => b.step == 1) = true := by
      decide +kernel
    split at hend
    · cases hend
    · rename_i b hb
      have hstep : b.step = 1 := eq_of_beq hend
      obtain ⟨k, hk, hplace, hsmall, -⟩ := (eliminate_by_leading_minors ht _).2.2.1 b hb
      rw [hstep] at hplace
      obtain rfl : k = 1 := (Nat.succ.inj hplace).symm
      exact ⟨b, hb, hstep, hsmall⟩

end Gauss

end LinearSystems
