import Mathlib
import LinearSystems.Proofs.Exact
import LinearSystems.Proofs.Tridiagonal.Step

/-!
# Sweeps of dominant systems

If every diagonal entry of a tridiagonal system exceeds its two neighbours together by the
threshold, every `alpha` stays below one in magnitude. So a row loses less than its lower entry to
the row before it, its divisor keeps the margin over the upper entry, and no sweep stops.
-/

namespace LinearSystems.Tridiagonal.Band

variable {n : Nat} {t : Rat} {B : Band Rat n} {S : Sweep Rat n}

/-- Every diagonal entry exceeds the lower and the upper entry of its row together by `t`. -/
def Dominant (t : Rat) (B : Band Rat n) : Prop :=
  ∀ i : Fin n, t + |B.lower[i]| + |B.upper[i]| ≤ |B.diag[i]|

/-- As long as every `alpha` is below one, every divisor keeps the margin over the upper entry. -/
theorem Dominant.le_abs_divisor (h : Dominant t B) (hS : ∀ j : Fin n, |S.alpha[j]| < 1)
    (i : Fin n) : t + |B.upper[i]| ≤ |B.divisor S i| := by
  have hrow := h i
  rcases eq_zero_or_eq_succ i with hi | ⟨p, hp⟩
  · rw [B.divisor_of_eq_zero S hi]
    have := abs_nonneg B.lower[i]
    linarith
  · rw [B.divisor_of_eq_succ S hp]
    have hlost : |B.lower[i] * S.alpha[p]| ≤ |B.lower[i]| := by
      rw [abs_mul]
      exact mul_le_of_le_one_right (abs_nonneg _) (hS p).le
    have := abs_sub_abs_le_abs_sub B.diag[i] (B.lower[i] * S.alpha[p])
    linarith

/-- A divisor that keeps the margin makes an `alpha` below one. -/
theorem Dominant.abs_alpha_swept_lt (h : Dominant t B) (ht : 0 < t)
    (hS : ∀ j : Fin n, |S.alpha[j]| < 1) (i j : Fin n) : |(B.swept S i).alpha[j]| < 1 := by
  by_cases hij : i = j
  · subst hij
    by_cases hi : i.val + 1 < n
    · have hdivisor := h.le_abs_divisor hS i
      have hpos : 0 < |B.divisor S i| := by
        have := abs_nonneg B.upper[i]
        linarith
      rw [B.getElem_alpha_swept S hi, abs_div, div_lt_one hpos]
      linarith
    · simp only [swept, hi, if_false]
      exact hS i
  · rw [B.getElem_alpha_swept_of_ne S hij]
    exact hS j

/-- No sweep of a dominant system stops, and every `alpha` that it writes is below one. -/
theorem Dominant.exists_sweepRows (h : Dominant t B) (ht : 0 < t) (k : Nat) (hk : k ≤ n) :
    ∃ S, B.sweepRows t k hk = .ok S ∧ ∀ j : Fin n, |S.alpha[j]| < 1 := by
  apply exists_sweepRows_of_invariant fun S => ∀ j : Fin n, |S.alpha[j]| < 1
  · intro j
    simp
  · intro S i hS
    have hdivisor := h.le_abs_divisor hS i
    have := abs_nonneg B.upper[i]
    exact ⟨Scalar.isBelow_rat_eq_false_iff.mpr (by linarith), h.abs_alpha_swept_lt ht hS i⟩

end LinearSystems.Tridiagonal.Band
