import Mathlib
import LinearSystems.Proofs.Exact
import LinearSystems.Proofs.Gauss.Step

/-!
# Elimination of dominant systems

If every diagonal entry exceeds the other coefficients of its row together by the threshold, then
what is left after a step has the same margin: a row gains as much of the pivot row as its factor
says, and the pivot row has less beside its pivot than the row itself gives up. So no pivot of such
a system is refused, and none has to be exchanged for a larger one.
-/

namespace LinearSystems.Gauss

variable {n : Nat} {t : Rat}

/-- In the rows and columns from `k` on every diagonal entry exceeds the other entries of its row
    together by `t`. The right-hand side does not count. -/
def DominantFrom (t : Rat) (M : Dense Rat n (n + 1)) (k : Nat) : Prop :=
  ∀ i : Fin n, k ≤ i.val →
    t + ∑ j : Fin n with k ≤ j.val ∧ j ≠ i, |M[i][j.castSucc]| ≤ |M[i][i.castSucc]|

theorem dominantFrom_zero_iff {A : Dense Rat n n} {b : Vector Rat n} :
    DominantFrom t (Dense.glue A b) 0 ↔ ∀ i : Fin n, t + A.offDiagonal i ≤ |A[i][i]| := by
  simp only [DominantFrom, Dense.offDiagonal, Dense.getElem_glue_castSucc, Nat.zero_le, true_and,
    forall_const]

/-- A sum over some places is the term of one of them and the sum over the others. -/
theorem sum_filter_eq_add {p q : Fin n → Prop} [DecidablePred p] [DecidablePred q]
    (f : Fin n → Rat) {a : Fin n} (ha : ¬ q a) (hp : ∀ j, p j ↔ j = a ∨ q j) :
    ∑ j with p j, f j = f a + ∑ j with q j, f j := by
  have hinsert : Finset.univ.filter p = insert a (Finset.univ.filter q) := by
    ext j
    simp [hp]
  rw [hinsert, Finset.sum_insert (by simp [ha])]

/-- Taking a multiple of one row from another adds at most as much of its magnitudes. -/
theorem sum_abs_sub_mul_le (s : Finset (Fin n)) (u v : Fin n → Rat) (f : Rat) :
    ∑ j ∈ s, |u j - f * v j| ≤ ∑ j ∈ s, |u j| + |f| * ∑ j ∈ s, |v j| := by
  rw [Finset.mul_sum, ← Finset.sum_add_distrib]
  apply Finset.sum_le_sum
  intro j _
  rw [← abs_mul]
  exact abs_sub _ _

namespace DominantFrom

variable {M : Dense Rat n (n + 1)} {k : Nat}

theorem le_abs_diagonal (h : DominantFrom t M k) {i : Fin n} (hi : k ≤ i.val) :
    t ≤ |M[i][i.castSucc]| := by
  have hrest : 0 ≤ ∑ j : Fin n with k ≤ j.val ∧ j ≠ i, |M[i][j.castSucc]| :=
    Finset.sum_nonneg fun _ _ => abs_nonneg _
  have hrow := h i hi
  linarith

/-- A row after the pivot row `c` has its entry in column `c` and the rest beside its diagonal. -/
theorem row_after {c i : Fin n} (h : DominantFrom t M c) (hci : c < i) :
    t + (|M[i][c.castSucc]| +
      ∑ j : Fin n with c.val + 1 ≤ j.val ∧ j ≠ i, |M[i][j.castSucc]|) ≤ |M[i][i.castSucc]| := by
  have hrow := h i hci.le
  rwa [sum_filter_eq_add (fun j : Fin n => |M[i][j.castSucc]|)
    (q := fun j => c.val + 1 ≤ j.val ∧ j ≠ i) (a := c) (by omega) (by omega)] at hrow

/-- The pivot row has its entry in column `i` and the rest beside its pivot. -/
theorem row_pivot {c i : Fin n} (h : DominantFrom t M c) (hci : c < i) :
    t + (|M[c][i.castSucc]| +
      ∑ j : Fin n with c.val + 1 ≤ j.val ∧ j ≠ i, |M[c][j.castSucc]|) ≤ |M[c][c.castSucc]| := by
  have hrow := h c le_rfl
  rwa [sum_filter_eq_add (fun j : Fin n => |M[c][j.castSucc]|)
    (q := fun j => c.val + 1 ≤ j.val ∧ j ≠ i) (a := i) (by omega) (by omega)] at hrow

/-- What is left after a step has the margin that there was before it. -/
theorem eliminateBelow {c : Fin n} (h : DominantFrom t M c) (ht : 0 < t) :
    DominantFrom t (eliminateBelow M c) (c.val + 1) := by
  intro i hi
  have hci : c < i := hi
  have hrow := h.row_after hci
  have hpivotRow := h.row_pivot hci
  have hpivotPos : 0 < |M[c][c.castSucc]| := ht.trans_le (h.le_abs_diagonal le_rfl)
  have hentry (j : Fin n) (hj : c ≤ j) : (Gauss.eliminateBelow M c)[i][j.castSucc] =
      M[i][j.castSucc] - M[i][c.castSucc] / M[c][c.castSucc] * M[c][j.castSucc] := by
    rw [getElem_eliminateBelow, if_pos ⟨hci, Fin.castSucc_le_castSucc_iff.mpr hj⟩]
  generalize hfactor : M[i][c.castSucc] / M[c][c.castSucc] = f at hentry
  have hrest : ∑ j : Fin n with c.val + 1 ≤ j.val ∧ j ≠ i,
        |(Gauss.eliminateBelow M c)[i][j.castSucc]| ≤
      ∑ j : Fin n with c.val + 1 ≤ j.val ∧ j ≠ i, |M[i][j.castSucc]| +
        |f| * ∑ j : Fin n with c.val + 1 ≤ j.val ∧ j ≠ i, |M[c][j.castSucc]| := by
    rw [Finset.sum_congr rfl fun j hj =>
      congrArg abs (hentry j (Nat.le_of_lt (Finset.mem_filter.mp hj).2.1))]
    exact sum_abs_sub_mul_le _ (fun j : Fin n => M[i][j.castSucc])
      (fun j : Fin n => M[c][j.castSucc]) f
  have hdiagonal : |M[i][i.castSucc]| - |f| * |M[c][i.castSucc]| ≤
      |(Gauss.eliminateBelow M c)[i][i.castSucc]| := by
    rw [hentry i hci.le, ← abs_mul]
    exact abs_sub_abs_le_abs_sub _ _
  -- The row gives up its cancelled entry, which is the factor times the whole pivot.
  have hgained : |f| * (t + (|M[c][i.castSucc]| +
      ∑ j : Fin n with c.val + 1 ≤ j.val ∧ j ≠ i, |M[c][j.castSucc]|)) ≤ |M[i][c.castSucc]| := by
    calc _ ≤ |f| * |M[c][c.castSucc]| := mul_le_mul_of_nonneg_left hpivotRow (abs_nonneg f)
      _ = |M[i][c.castSucc]| := by rw [← hfactor, abs_div, div_mul_cancel₀ _ hpivotPos.ne']
  have hmargin : 0 ≤ |f| * t := mul_nonneg (abs_nonneg f) ht.le
  rw [mul_add, mul_add] at hgained
  linarith

/-- No run on a dominant system breaks down, all pivots that it accepts keep the margin, and so
    does what is left. -/
theorem exists_after (h : DominantFrom t M 0) (ht : 0 < t) (k : Nat) (hk : k ≤ n) :
    ∃ P, Progress.after .diagonal t M k hk = .ok P ∧
      DominantFrom t P.matrix k ∧ ∀ v ∈ P.pivots, t ≤ |v| := by
  apply Progress.exists_after_of_invariant
    fun k P => DominantFrom t P.matrix k ∧ ∀ v ∈ P.pivots, t ≤ |v|
  · exact ⟨h, by simp [Progress.start]⟩
  · rintro k hk P ⟨hdominant, hpivots⟩
    have hpivot : t ≤ |P.pivotAt .diagonal ⟨k, hk⟩| :=
      hdominant.le_abs_diagonal (i := ⟨k, hk⟩) le_rfl
    refine ⟨Scalar.isBelow_rat_eq_false_iff.mpr hpivot, ?_, ?_⟩
    · exact DominantFrom.eliminateBelow (c := ⟨k, hk⟩) hdominant ht
    · intro v hv
      rcases List.mem_append.mp hv with hold | hnew
      · exact hpivots v hold
      · rw [List.mem_singleton.mp hnew]
        exact hpivot

end DominantFrom

end LinearSystems.Gauss
