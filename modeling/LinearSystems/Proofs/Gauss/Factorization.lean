import LinearSystems.Proofs.Gauss.Soundness

/-!
# The factors of the elimination

In exact arithmetic elimination without pivoting factors the coefficients as it goes: after `k`
steps every row of the system is its working row and a combination of the first `k` working rows
before it. What the steps have subtracted is nowhere stored, but it is there.
-/

namespace LinearSystems

namespace Dense

/-- The coefficients of a system as a matrix. -/
def coefficientMatrix {n : Nat} (M : Dense Rat n (n + 1)) : Matrix (Fin n) (Fin n) Rat :=
  M.coefficients.toMatrix

theorem coefficientMatrix_apply {n : Nat} (M : Dense Rat n (n + 1)) (i j : Fin n) :
    M.coefficientMatrix i j = M[i][j.castSucc] := by
  rw [coefficientMatrix, toMatrix_apply, getElem_coefficients]

theorem coefficientMatrix_rearranged {n : Nat} (M : Dense Rat n (n + 1)) (s p : Fin n → Fin n) :
    (M.rearranged s p).coefficientMatrix = M.coefficientMatrix.submatrix s p := by
  ext i j
  rw [Matrix.submatrix_apply, coefficientMatrix_apply, coefficientMatrix_apply,
    getElem_rearranged_castSucc]

end Dense

namespace Gauss

variable {n : Nat} {t : Rat}

/-- The multiples of the working rows that the first `k` steps have subtracted from the rows of a
    system: each row lost multiples of rows before it and among the first `k`, and putting them back
    gives the system. -/
structure Factors (M : Dense Rat n (n + 1)) (k : Nat) (W : Dense Rat n (n + 1))
    (C : Matrix (Fin n) (Fin n) Rat) : Prop where
  eq_zero : ∀ i j : Fin n, ¬ (j < i ∧ j.val < k) → C i j = 0
  product : M.coefficientMatrix = (1 + C) * W.coefficientMatrix

namespace Factors

variable {M W : Dense Rat n (n + 1)} {k : Nat} {C : Matrix (Fin n) (Fin n) Rat}

theorem start (M : Dense Rat n (n + 1)) : Factors M 0 M 0 where
  eq_zero := fun _ _ _ => rfl
  product := by rw [add_zero, one_mul]

/-- A row of the system is its working row with the subtracted multiples put back. -/
theorem apply_eq (h : Factors M k W C) (i l : Fin n) :
    M.coefficientMatrix i l =
      W.coefficientMatrix i l + ∑ j : Fin n, C i j * W.coefficientMatrix j l := by
  rw [h.product, Matrix.add_mul, Matrix.one_mul, Matrix.add_apply, Matrix.mul_apply]

/-- The multiples that step `i` subtracts. -/
def multiples (W : Dense Rat n (n + 1)) (i : Fin n) : Matrix (Fin n) (Fin n) Rat :=
  Matrix.of fun j l => if l = i ∧ i < j then W[j][i.castSucc] / W[i][i.castSucc] else 0

theorem succ {i : Fin n} (h : Factors M i W C) (hcleared : Cleared W i) :
    Factors M (i.val + 1) (eliminateBelow W i) (C + multiples W i) where
  eq_zero := by
    intro j l hjl
    have hold : C j l = 0 := h.eq_zero j l fun hboth => hjl ⟨hboth.1, by omega⟩
    have hnew : ¬ (l = i ∧ i < j) := by
      rintro ⟨rfl, hlt⟩
      exact hjl ⟨hlt, Nat.lt_succ_self _⟩
    rw [Matrix.add_apply, hold, multiples, Matrix.of_apply, if_neg hnew, add_zero]
  product := by
    ext j l
    have hkept {m : Fin n} (hm : m ≤ i) :
        (eliminateBelow W i).coefficientMatrix m l = W.coefficientMatrix m l := by
      simp only [Dense.coefficientMatrix_apply, getElem_eliminateBelow_of_le W hm]
    have hrow : W.coefficientMatrix j l = (eliminateBelow W i).coefficientMatrix j l +
        if i < j then W[j][i.castSucc] / W[i][i.castSucc] * W.coefficientMatrix i l else 0 := by
      split
      · rename_i hij
        simp only [Dense.coefficientMatrix_apply, hcleared.entry_below hij]
        ring
      · rename_i hij
        rw [hkept (not_lt.mp hij), add_zero]
    -- The multiples that are there already are of rows that the step leaves alone.
    have hold : ∑ m : Fin n, C j m * W.coefficientMatrix m l =
        ∑ m : Fin n, C j m * (eliminateBelow W i).coefficientMatrix m l := by
      apply Finset.sum_congr rfl
      intro m _
      by_cases hm : m.val < i.val
      · rw [hkept (Nat.le_of_lt hm)]
      · rw [h.eq_zero j m fun hboth => hm hboth.2, zero_mul, zero_mul]
    have hnew : ∑ m : Fin n, multiples W i j m * (eliminateBelow W i).coefficientMatrix m l =
        if i < j then W[j][i.castSucc] / W[i][i.castSucc] * W.coefficientMatrix i l else 0 := by
      rw [Finset.sum_eq_single i]
      · simp only [multiples, Matrix.of_apply, true_and, hkept le_rfl, ite_mul, zero_mul]
      · intro m _ hm
        rw [multiples, Matrix.of_apply, if_neg fun hboth => hm hboth.1, zero_mul]
      · intro hi
        exact absurd (Finset.mem_univ i) hi
    rw [h.apply_eq, hold, hrow, Matrix.add_mul, Matrix.one_mul, Matrix.add_mul, Matrix.add_apply,
      Matrix.add_apply, Matrix.mul_apply, Matrix.mul_apply, hnew]
    ring

end Factors

/-- The first `k` steps without pivoting factor the system. -/
theorem exists_factors_of_after {M : Dense Rat n (n + 1)} (ht : 0 < t) {k : Nat} {hk : k ≤ n}
    {P : Progress Rat n} (hP : Progress.after .diagonal t M k hk = .ok P) :
    ∃ C, Factors M k P.matrix C := by
  have hboth : Reduces M k P ∧ ∃ C, Factors M k P.matrix C := by
    refine Progress.after_invariant (fun k P => Reduces M k P ∧ ∃ C, Factors M k P.matrix C)
      ⟨Reduces.start M, 0, Factors.start M⟩ ?_ hP
    rintro k hk Q ⟨hreduces, C, hfactors⟩ hpivot
    have hfactors : Factors M (⟨k, hk⟩ : Fin n) Q.matrix C := hfactors
    exact ⟨hreduces.accepted ht hpivot, _, hfactors.succ hreduces.cleared⟩
  exact hboth.2

end Gauss

end LinearSystems
