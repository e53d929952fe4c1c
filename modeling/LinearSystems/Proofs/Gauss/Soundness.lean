import LinearSystems.Proofs.Gauss.Rearranged
import LinearSystems.Proofs.Gauss.Triangular

/-!
# Soundness of the elimination

In exact arithmetic a solution that either way of pivoting returns is the only solution of the
system. Without pivoting every step keeps the solutions of the system and clears one more unknown
from the rows below its own, so that a triangular system with the same solutions is left. With
complete pivoting the same is true of the rearranged system, and the unknowns go back to their
places.
-/

namespace LinearSystems.Gauss

variable {n : Nat} {t : Rat}

/-- A row below row `i` loses the multiple of row `i` that its factor says, in every column: before
    column `i` there is nothing to lose. -/
theorem Cleared.entry_below {M : Dense Rat n (n + 1)} {i j : Fin n}
    (h : Cleared M i) (hj : i < j) (l : Fin (n + 1)) :
    (eliminateBelow M i)[j][l] = M[j][l] - M[j][i.castSucc] / M[i][i.castSucc] * M[i][l] := by
  rw [getElem_eliminateBelow]
  by_cases hl : i.castSucc ≤ l
  · rw [if_pos ⟨hj, hl⟩]
  · have hli : l.val < i.val := not_le.mp hl
    have hzero : M[i][l] = 0 := h i ⟨l.val, by omega⟩ hli hli
    rw [if_neg fun hboth => hl hboth.2, hzero, mul_zero, sub_zero]

/-- Eliminating an unknown clears it, and those before it stay cleared. -/
theorem Cleared.succ {M : Dense Rat n (n + 1)} {i : Fin n} (h : Cleared M i)
    (hpivot : M[i][i.castSucc] ≠ 0) : Cleared (eliminateBelow M i) (i.val + 1) := by
  intro j l hl hlj
  rcases Nat.lt_or_eq_of_le (Nat.le_of_lt_succ hl) with hlt | heq
  · have hbefore : ¬ i.castSucc ≤ l.castSucc := not_le.mpr hlt
    rw [getElem_eliminateBelow, if_neg fun hboth => hbefore hboth.2]
    exact h j l hlt hlj
  · obtain rfl : l = i := Fin.ext heq
    rw [h.entry_below hlj, div_mul_cancel₀ _ hpivot, sub_self]

/-- Eliminating an unknown neither loses a solution nor adds one. -/
theorem Cleared.isSolution_eliminateBelow_iff {M : Dense Rat n (n + 1)} {i : Fin n}
    (h : Cleared M i) (x : Vector Rat n) :
    Dense.IsSolution (eliminateBelow M i) x ↔ Dense.IsSolution M x := by
  have hsum (j : Fin n) (hj : i < j) :
      ∑ l : Fin n, (eliminateBelow M i)[j][l.castSucc] * x[l] =
        ∑ l : Fin n, M[j][l.castSucc] * x[l] -
          M[j][i.castSucc] / M[i][i.castSucc] * ∑ l : Fin n, M[i][l.castSucc] * x[l] := by
    rw [Finset.mul_sum, ← Finset.sum_sub_distrib]
    apply Finset.sum_congr rfl
    intro l _
    rw [h.entry_below hj]
    ring
  constructor
  · intro hx
    have hrow (j : Fin n) (hj : j ≤ i) :
        ∑ l : Fin n, M[j][l.castSucc] * x[l] = M[j][Fin.last n] := by
      have := hx j
      simp only [getElem_eliminateBelow_of_le M hj] at this
      exact this
    intro j
    rcases le_or_gt j i with hj | hj
    · exact hrow j hj
    · have := hx j
      rw [hsum j hj, h.entry_below hj, hrow i le_rfl] at this
      exact sub_left_inj.mp this
  · intro hx j
    rcases le_or_gt j i with hj | hj
    · simp only [getElem_eliminateBelow_of_le M hj]
      exact hx j
    · rw [hsum j hj, h.entry_below hj, hx j, hx i]

/-- What holds after `k` steps without pivoting: the working matrix has the solutions of the system,
    the first `k` unknowns are gone from the rows after their own, and they stand on the diagonal
    with coefficients other than zero. -/
structure Reduces (M : Dense Rat n (n + 1)) (k : Nat) (P : Progress Rat n) : Prop where
  isSolution_iff : ∀ x, Dense.IsSolution P.matrix x ↔ Dense.IsSolution M x
  cleared : Cleared P.matrix k
  diagonal_ne_zero : ∀ i : Fin n, i.val < k → P.matrix[i][i.castSucc] ≠ 0

theorem Reduces.start (M : Dense Rat n (n + 1)) : Reduces M 0 (Progress.start M) where
  isSolution_iff := fun _ => Iff.rfl
  cleared := fun _ _ hl => absurd hl (Nat.not_lt_zero _)
  diagonal_ne_zero := fun _ hi => absurd hi (Nat.not_lt_zero _)

theorem Reduces.accepted {M : Dense Rat n (n + 1)} {k : Nat} {hk : k < n} {P : Progress Rat n}
    (h : Reduces M k P) (ht : 0 < t)
    (hpivot : Scalar.isBelow t (P.pivotAt .diagonal ⟨k, hk⟩) = false) :
    Reduces M (k + 1) (P.accepted .diagonal ⟨k, hk⟩) := by
  have hne : P.matrix[k][(Fin.castSucc ⟨k, hk⟩ : Fin (n + 1))] ≠ 0 :=
    Scalar.ne_zero_of_isBelow_eq_false ht hpivot
  have hcleared : Cleared P.matrix (⟨k, hk⟩ : Fin n) := h.cleared
  refine ⟨?_, hcleared.succ hne, ?_⟩
  · intro x
    exact (hcleared.isSolution_eliminateBelow_iff x).trans (h.isSolution_iff x)
  · intro i hi
    have hle : i ≤ ⟨k, hk⟩ := Nat.le_of_lt_succ hi
    show (eliminateBelow P.matrix ⟨k, hk⟩)[i][i.castSucc] ≠ 0
    rw [getElem_eliminateBelow_of_le P.matrix hle]
    rcases Nat.lt_or_eq_of_le (Nat.le_of_lt_succ hi) with hlt | rfl
    · exact h.diagonal_ne_zero i hlt
    · exact hne

theorem reduces_of_after {M : Dense Rat n (n + 1)} (ht : 0 < t) {k : Nat} {hk : k ≤ n}
    {P : Progress Rat n} (hP : Progress.after .diagonal t M k hk = .ok P) : Reduces M k P :=
  Progress.after_invariant (Reduces M) (Reduces.start M)
    (fun _ _ _ h hpivot => h.accepted ht hpivot) hP

/-- A solution without pivoting is the only solution. -/
theorem isSolution_iff_of_solve_diagonal {M : Dense Rat n (n + 1)} {s : Solved Rat n}
    (ht : 0 < t) (hs : solve .diagonal t M = .ok s) (x : Vector Rat n) :
    Dense.IsSolution M x ↔ x = s.x := by
  obtain ⟨P, hP, rfl⟩ := solve_eq_ok_iff.mp hs
  have hreduces := reduces_of_after ht hP
  rw [← hreduces.isSolution_iff]
  exact hreduces.cleared.isSolution_iff (fun i => hreduces.diagonal_ne_zero i i.isLt) x

/-- A solution with complete pivoting is the only solution, each value under its own unknown. -/
theorem isSolution_iff_of_solve_complete {M : Dense Rat n (n + 1)} {s : Solved Rat n}
    (ht : 0 < t) (hs : solve .complete t M = .ok s) (x : Vector Rat n) :
    Dense.IsSolution M x ↔ x = s.x := by
  obtain ⟨P, hP, -⟩ := solve_eq_ok_iff.mp hs
  have hbijective := (Progress.mirrors_of_after hP).unknown_bijective
  obtain ⟨s', y, hs', hy, -, hplace⟩ := exists_solve_diagonal hP
  obtain rfl : s' = s := Except.ok.inj (hs'.symm.trans hs)
  -- The plain run says which vector solves the rearranged system; `hplace` takes it back.
  rw [← Dense.isSolution_rearranged_iff (Equiv.surjective (rowOrder t M n (Nat.le_refl n)))
    hbijective, isSolution_iff_of_solve_diagonal ht hy]
  constructor
  · intro hx
    apply Vector.ext
    intro i hi
    obtain ⟨k, hk⟩ := hbijective.surjective ⟨i, hi⟩
    have hentry : (Vector.ofFn fun k => x[P.unknown k])[k] = y.x[k] := by rw [hx]
    rw [getElem_fin, Vector.getElem_ofFn, ← hplace] at hentry
    simpa only [Fin.eta, hk, getElem_fin] using hentry
  · rintro rfl
    apply Vector.ext
    intro k hk
    rw [Vector.getElem_ofFn]
    exact hplace ⟨k, hk⟩

/-- In exact arithmetic, what a run returns with either way of pivoting solves the system as it was
    given, with its own rows and the unknowns in their own order; nothing else solves it; and so the
    other way of pivoting, if it returns anything, returns the same. -/
theorem solve_sound {t : Rat} (ht : 0 < t) (mode : Pivoting) (M : Dense Rat n (n + 1))
    {s : Solved Rat n} (hs : solve mode t M = .ok s) :
    Dense.IsSolution M s.x ∧ (∀ x, Dense.IsSolution M x → x = s.x) ∧
      ∀ mode' s', solve mode' t M = .ok s' → s'.x = s.x := by
  have hiff (mode : Pivoting) (s : Solved Rat n) (hs : solve mode t M = .ok s)
      (x : Vector Rat n) : Dense.IsSolution M x ↔ x = s.x := by
    cases mode with
    | diagonal => exact isSolution_iff_of_solve_diagonal ht hs x
    | complete => exact isSolution_iff_of_solve_complete ht hs x
  refine ⟨(hiff mode s hs s.x).mpr rfl, fun x => (hiff mode s hs x).mp, ?_⟩
  intro mode' s' hs'
  exact (hiff mode s hs s'.x).mp ((hiff mode' s' hs' s'.x).mpr rfl)

/-- Complete pivoting starts from the 8 here, so the columns of the two unknowns change places, and
    the answer has them in their own order again. -/
theorem solve_sound_two_rows :
    ∃ s : Solved Rat 2,
      solve .complete (1 / 1000000) #v[#v[1, 2, 4], #v[3, 8, 11]] = .ok s ∧ s.x = #v[5, -1 / 2] ∧
        Dense.IsSolution #v[#v[1, 2, 4], #v[3, 8, 11]] s.x ∧
        (∀ x, Dense.IsSolution #v[#v[1, 2, 4], #v[3, 8, 11]] x → x = s.x) ∧
        ∀ mode' s', solve mode' (1 / 1000000) #v[#v[1, 2, 4], #v[3, 8, 11]] = .ok s' →
          s'.x = s.x := by
  have hend : (match solve .complete (1 / 1000000 : Rat) #v[#v[1, 2, 4], #v[3, 8, 11]] with
      | .ok s => s.x == #v[5, -1 / 2]
      | .error _ => false) = true := by
    decide +kernel
  split at hend
  · rename_i s hs
    exact ⟨s, hs, eq_of_beq hend, solve_sound (by norm_num) .complete _ hs⟩
  · cases hend

end LinearSystems.Gauss
