import Mathlib
import LinearSystems.Proofs.Gauss.Minors
import LinearSystems.Proofs.Largest

/-!
# Breakdowns and singular matrices

In exact arithmetic a breakdown of complete pivoting is a certificate: what is left to eliminate is
too small everywhere, and without it the coefficients are a matrix whose rank is the number of
pivots that were accepted. The other way round, every accepted pivot adds to the rank that the
coefficients must have, so a singular matrix is never eliminated to the end, and a run on it stops
at most one step after its rank.
-/

namespace LinearSystems.Gauss

variable {n : Nat} {t : Rat} {M : Dense Rat n (n + 1)}

theorem Pivoting.step_smallDivisor (mode : Pivoting) (k : Nat) :
    (mode.smallDivisor k).step = k + 1 := by
  cases mode <;> rfl

/-- What complete pivoting has chosen is at least as large as every coefficient that is left. -/
theorem abs_le_abs_pivotAt (P : Progress Rat n) {i r c : Fin n} (hr : i ≤ r) (hc : i ≤ c) :
    |P.matrix[r][c.castSucc]| ≤ |P.pivotAt .complete i| := by
  have hlargest := isLargest_firstLargest (magnitude P.matrix) (i, i) (block n i.val i.val)
  have hle := hlargest.le
    (List.mem_cons_of_mem _ (List.mem_map.mpr ⟨(r, c), mem_block.mpr ⟨hr, hc⟩, rfl⟩))
  simp only [magnitude, Scalar.abs_rat] at hle
  rw [P.pivotAt_complete]
  exact hle

/-- The exchanges of a step do not bring in other coefficients. -/
theorem abs_arrange_le_abs_pivotAt (P : Progress Rat n) {i r c : Fin n} (hr : i ≤ r) (hc : i ≤ c) :
    |(P.arrange .complete i).matrix[r][c.castSucc]| ≤ |P.pivotAt .complete i| := by
  obtain ⟨hrow, hcolumn⟩ := le_largestFrom P.matrix i
  have hrows : FixesBelow (Equiv.swap i (largestFrom P.matrix i).1) i.val :=
    FixesBelow.swap le_rfl hrow
  have hcolumns : FixesBelow (Equiv.swap i (largestFrom P.matrix i).2) i.val :=
    FixesBelow.swap le_rfl hcolumn
  rw [Progress.arrange_complete]
  simp only [Dense.getElem_rearranged_castSucc]
  exact abs_le_abs_pivotAt P ((hrows.le_apply_iff r).mpr hr) ((hcolumns.le_apply_iff c).mpr hc)

/-- The diagonal matrix that keeps the first `k` rows. -/
def keepFirst (n k : Nat) : Matrix (Fin n) (Fin n) Rat :=
  Matrix.diagonal fun m => if m.val < k then 1 else 0

theorem rank_keepFirst_le (n k : Nat) : (keepFirst n k).rank ≤ k := by
  rw [keepFirst, Matrix.rank_diagonal]
  have hlt (m : { m : Fin n // (if m.val < k then (1 : Rat) else 0) ≠ 0 }) : m.val.val < k := by
    by_contra hm
    exact m.property (if_neg hm)
  calc Fintype.card { m : Fin n // (if m.val < k then (1 : Rat) else 0) ≠ 0 }
      ≤ Fintype.card (Fin k) := by
        apply Fintype.card_le_of_injective fun m => (⟨m.val.val, hlt m⟩ : Fin k)
        intro m m' heq
        exact Subtype.ext (Fin.ext (Fin.mk.inj heq))
    _ = k := Fintype.card_fin k

/-- If all that is left after `k` steps is small, the system is close to one of rank at most `k`:
    the factors with only the first `k` working rows. -/
theorem Factors.exists_rank_le {W : Dense Rat n (n + 1)} {k : Nat}
    {C : Matrix (Fin n) (Fin n) Rat} (h : Factors M k W C) (ht : 0 < t) (hcleared : Cleared W k)
    (hsmall : ∀ r c : Fin n, k ≤ r.val → k ≤ c.val → |W[r][c.castSucc]| < t) :
    ∃ B : Matrix (Fin n) (Fin n) Rat, B.rank ≤ k ∧
      ∀ i j, |M.coefficientMatrix i j - B i j| < t := by
  refine ⟨(1 + C) * (keepFirst n k * W.coefficientMatrix), ?_, ?_⟩
  · calc ((1 + C) * (keepFirst n k * W.coefficientMatrix)).rank
        ≤ (keepFirst n k * W.coefficientMatrix).rank := Matrix.rank_mul_le_right _ _
      _ ≤ (keepFirst n k).rank := Matrix.rank_mul_le_left _ _
      _ ≤ k := rank_keepFirst_le n k
  · intro i j
    have hkept : (C * (keepFirst n k * W.coefficientMatrix)) i j =
        ∑ m : Fin n, C i m * W.coefficientMatrix m j := by
      rw [Matrix.mul_apply]
      apply Finset.sum_congr rfl
      intro m _
      rw [keepFirst, Matrix.diagonal_mul]
      by_cases hm : m.val < k
      · rw [if_pos hm, one_mul]
      · rw [h.eq_zero i m fun hboth => hm hboth.2, zero_mul, zero_mul]
    have hdifference : M.coefficientMatrix i j -
        ((1 + C) * (keepFirst n k * W.coefficientMatrix)) i j =
        if i.val < k then 0 else W.coefficientMatrix i j := by
      rw [h.apply_eq, Matrix.add_mul, Matrix.one_mul, Matrix.add_apply, hkept,
        add_sub_add_right_eq_sub, keepFirst, Matrix.diagonal_mul]
      split
      · rw [one_mul, sub_self]
      · rw [zero_mul, sub_zero]
    -- What is left out is zero in the cleared columns and small in the others.
    rw [hdifference, Dense.coefficientMatrix_apply]
    split
    · rw [abs_zero]
      exact ht
    · rename_i hi
      by_cases hj : j.val < k
      · have hzero := hcleared i j hj (Nat.lt_of_lt_of_le hj (not_lt.mp hi))
        rw [hzero, abs_zero]
        exact ht
      · exact hsmall i j (not_lt.mp hi) (not_lt.mp hj)

/-- The same with exchanges: they reorder both the system and the one close to it. -/
theorem Progress.Mirrors.exists_rank_le {k : Nat} {hk : k ≤ n} {s : Equiv.Perm (Fin n)}
    {P : Progress Rat n} (h : Progress.Mirrors t M k hk s P) (ht : 0 < t)
    (hsmall : ∀ r c : Fin n, k ≤ r.val → k ≤ c.val → |P.matrix[r][c.castSucc]| < t) :
    ∃ B : Matrix (Fin n) (Fin n) Rat, B.rank ≤ k ∧
      ∀ i j, |M.coefficientMatrix i j - B i j| < t := by
  obtain ⟨C, hfactors⟩ := exists_factors_of_after ht h.after_diagonal
  have hcleared := (reduces_of_after ht h.after_diagonal).cleared
  obtain ⟨B, hrank, hnear⟩ := hfactors.exists_rank_le ht hcleared hsmall
  let p := Equiv.ofBijective P.unknown h.unknown_bijective
  refine ⟨B.submatrix s.symm p.symm, (Matrix.rank_submatrix_le B _ _).trans hrank, ?_⟩
  intro i j
  have hrow : s (s.symm i) = i := s.apply_symm_apply i
  have hcolumn : P.unknown (p.symm j) = j := p.apply_symm_apply j
  have hentry := hnear (s.symm i) (p.symm j)
  rw [Dense.coefficientMatrix_rearranged, Matrix.submatrix_apply, hrow, hcolumn] at hentry
  exact hentry

/-- Every accepted pivot adds to the rank that the coefficients must have. -/
theorem le_rank_of_after {mode : Pivoting} (ht : 0 < t) {k : Nat} {hk : k ≤ n}
    {P : Progress Rat n} (hP : Progress.after mode t M k hk = .ok P) :
    k ≤ M.coefficientMatrix.rank := by
  have hplain {N : Dense Rat n (n + 1)} {Q : Progress Rat n}
      (hQ : Progress.after .diagonal t N k hk = .ok Q) : k ≤ N.coefficientMatrix.rank := by
    have hminor := Matrix.rank_of_det_ne_zero (leadingMinor_ne_zero ht hQ)
    rw [Fintype.card_fin] at hminor
    rw [← hminor]
    exact Matrix.rank_submatrix_le _ _ _
  cases mode with
  | diagonal => exact hplain hP
  | complete =>
    have hrank := hplain (Progress.mirrors_of_after hP).after_diagonal
    rw [Dense.coefficientMatrix_rearranged] at hrank
    exact hrank.trans (Matrix.rank_submatrix_le _ _ _)

/-- In exact arithmetic, for every system: if complete pivoting breaks down, then a matrix of a rank
    below the reported step is closer to the coefficients than the threshold, entry by entry. The
    other way round, coefficients whose rank is not full are never eliminated to the end, and both
    ways of pivoting stop at most one step after the rank. -/
theorem breakdown_certifies_near_singular {t : Rat} (ht : 0 < t) (M : Dense Rat n (n + 1)) :
    (∀ b, eliminate .complete t M = .error b →
      ∃ B : Matrix (Fin n) (Fin n) Rat,
        B.rank < (Pivoting.smallDivisor .complete b.step).step ∧
        ∀ i j, |M.coefficientMatrix i j - B i j| < t) ∧
    (M.coefficientMatrix.rank < n → ∀ mode, ∃ b, eliminate mode t M = .error b ∧
      (Pivoting.smallDivisor mode b.step).step ≤ M.coefficientMatrix.rank + 1) := by
  refine ⟨?_, ?_⟩
  · intro b hb
    obtain ⟨k, hk, P, hP, hpivot, rfl⟩ := Progress.exists_refused_of_after_eq_error hb
    -- The bound by the refused pivot holds once the step has made its exchanges.
    have hmirror := (Progress.mirrors_of_after hP).arrange (i := ⟨k, hk⟩) rfl
    have hsmall : |P.pivotAt .complete ⟨k, hk⟩| < t := by
      rw [← not_le, ← Scalar.isBelow_rat_eq_false_iff, hpivot]
      exact Bool.noConfusion
    obtain ⟨B, hrank, hnear⟩ := hmirror.exists_rank_le ht fun r c hr hc =>
      (abs_arrange_le_abs_pivotAt P hr hc).trans_lt hsmall
    exact ⟨B, Nat.lt_succ_of_le hrank, hnear⟩
  · intro hrank mode
    cases hend : eliminate mode t M with
    | ok P => exact absurd (le_rank_of_after ht hend) (not_le.mpr hrank)
    | error b =>
      obtain ⟨k, hk, P, hP, -, rfl⟩ := Progress.exists_refused_of_after_eq_error hend
      refine ⟨_, rfl, ?_⟩
      rw [Pivoting.step_smallDivisor]
      exact Nat.succ_le_succ (le_rank_of_after ht hP)

/-- The second row is twice the first, so the rank is one: both ways of pivoting give the system up
    by their second step, and complete pivoting certifies a rank below two. -/
theorem breakdown_certifies_near_singular_two_rows :
    (Dense.coefficientMatrix #v[#v[1, 2, 4], #v[2, 4, 11]]).rank < 2 ∧
      (∀ mode, ∃ b : Breakdown Rat 2,
        eliminate mode (1 / 1000000) #v[#v[1, 2, 4], #v[2, 4, 11]] = .error b ∧
          (Pivoting.smallDivisor mode b.step).step ≤
            (Dense.coefficientMatrix #v[#v[1, 2, 4], #v[2, 4, 11]]).rank + 1) ∧
      ∃ b : Breakdown Rat 2,
        eliminate .complete (1 / 1000000) #v[#v[1, 2, 4], #v[2, 4, 11]] = .error b ∧ b.step = 1 ∧
          ∃ B : Matrix (Fin 2) (Fin 2) Rat, B.rank < 2 ∧
            ∀ i j, |Dense.coefficientMatrix #v[#v[1, 2, 4], #v[2, 4, 11]] i j - B i j| <
              1 / 1000000 := by
  have ht : (0 : Rat) < 1 / 1000000 := by norm_num
  have hrank : (Dense.coefficientMatrix #v[#v[1, 2, 4], #v[2, 4, 11]]).rank < 2 := by
    have hproduct : Dense.coefficientMatrix #v[#v[1, 2, 4], #v[2, 4, 11]] =
        Matrix.vecMulVec ![1, 2] ![1, 2] := by
      ext i j
      fin_cases i <;> fin_cases j <;> decide +kernel
    rw [hproduct]
    exact Nat.lt_succ_of_le (Matrix.rank_vecMulVec_le _ _)
  refine ⟨hrank, (breakdown_certifies_near_singular ht _).2 hrank, ?_⟩
  have hend : (match eliminate .complete (1 / 1000000 : Rat) #v[#v[1, 2, 4], #v[2, 4, 11]] with
      | .ok _ => false
      | .error b => b.step == 1) = true := by
    decide +kernel
  split at hend
  · cases hend
  · rename_i b hb
    have hstep := eq_of_beq hend
    obtain ⟨B, hB, hnear⟩ := (breakdown_certifies_near_singular ht _).1 b hb
    rw [hstep] at hB
    exact ⟨b, hb, hstep, B, hB, hnear⟩

end LinearSystems.Gauss
