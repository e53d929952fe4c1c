import Mathlib
import LinearSystems.Proofs.Tridiagonal.Elimination

/-!
# The residual of a tridiagonal system

The residual is computed from the three diagonals alone. In exact arithmetic this is the residual of
the dense matrix, row by row, so what the sweep comes to is told by it: a finished sweep leaves
nothing of any row, and no other vector does.
-/

namespace LinearSystems.Tridiagonal

variable {n : Nat}

/-- Of the terms of a row the one of the row before is picked, if there is such a row. -/
theorem sum_previous? (f : Fin n → Rat) (i : Fin n) :
    ∑ j : Fin n, (if i.val = j.val + 1 then f j else 0) = (previous? i).elim 0 f := by
  rcases eq_zero_or_eq_succ i with hi | ⟨p, hp⟩
  · rw [previous?_of_eq_zero hi]
    apply Finset.sum_eq_zero
    intro j _
    rw [if_neg (by omega)]
  · have hterm (j : Fin n) : i.val = j.val + 1 ↔ j = p := by omega
    rw [previous?_of_eq_succ hp]
    simp only [hterm, Finset.sum_ite_eq', Finset.mem_univ, if_true, Option.elim_some]

/-- Of the terms of a row the one of the row after is picked, if there is such a row. -/
theorem sum_following? (f : Fin n → Rat) (i : Fin n) :
    ∑ j : Fin n, (if i.val + 1 = j.val then f j else 0) = (following? i).elim 0 f := by
  by_cases hi : i.val + 1 < n
  · have hterm (j : Fin n) : i.val + 1 = j.val ↔ j = ⟨i.val + 1, hi⟩ := by
      rw [Fin.ext_iff, eq_comm]
    rw [following?_of_eq_succ (j := ⟨i.val + 1, hi⟩) rfl]
    simp only [hterm, Finset.sum_ite_eq', Finset.mem_univ, if_true, Option.elim_some]
  · rw [following?_of_last (not_lt.mp hi)]
    apply Finset.sum_eq_zero
    intro j _
    rw [if_neg (by omega)]

namespace Band

/-- A row of the dense matrix reads as its three terms. -/
theorem sum_toDense (B : Band Rat n) (x : Vector Rat n) (i : Fin n) :
    ∑ j : Fin n, B.toDense[i][j] * x[j] =
      B.diag[i] * x[i] + (previous? i).elim 0 (fun p => B.lower[i] * x[p]) +
        (following? i).elim 0 fun j => B.upper[i] * x[j] := by
  have hterm (j : Fin n) : B.toDense[i][j] * x[j] =
      (if i = j then B.diag[i] * x[j] else 0) +
        (if i.val = j.val + 1 then B.lower[i] * x[j] else 0) +
        (if i.val + 1 = j.val then B.upper[i] * x[j] else 0) := by
    rw [toDense, Dense.getElem_ofFn, add_mul, add_mul, ite_zero_mul, ite_zero_mul, ite_zero_mul]
  simp only [hterm, Finset.sum_add_distrib, sum_previous?, sum_following?, Finset.sum_ite_eq,
    Finset.mem_univ, if_true]

theorem getElem_residual (B : Band Rat n) (x : Vector Rat n) (i : Fin n) :
    (B.residual x)[i] = B.diag[i] * x[i] - B.rhs[i] +
      (previous? i).elim 0 (fun p => B.lower[i] * x[p]) +
        (following? i).elim 0 fun j => B.upper[i] * x[j] := by
  have hrow : (B.residual x)[i] = B.residualAt x i := by simp [residual]
  rw [hrow, residualAt]
  cases previous? i <;> cases following? i <;> simp

/-- The residual from the three diagonals is the residual of the dense matrix. -/
theorem getElem_residual_eq_dense (B : Band Rat n) (x : Vector Rat n) (i : Fin n) :
    (B.residual x)[i] = (Dense.residual B.toDense B.rhs x)[i] := by
  rw [B.getElem_residual, Dense.getElem_residual, B.sum_toDense]
  ring

/-- A vector solves the dense system exactly if its residual vanishes in every row. -/
theorem isSolution_augmented_iff_residual (B : Band Rat n) (x : Vector Rat n) :
    Dense.IsSolution B.augmented x ↔ ∀ i : Fin n, (B.residual x)[i] = 0 := by
  simp only [augmented, Dense.isSolution_glue_iff_residual, B.getElem_residual_eq_dense]

/-- A finished sweep has the unknowns that plain elimination of the dense matrix returns. -/
theorem exists_solve_of_sweep {t : Rat} (ht : 0 < t) {B : Band Rat n} {S : Sweep Rat n}
    (hS : B.sweep t = .ok S) :
    ∃ s, Gauss.solve .diagonal t B.augmented = .ok s ∧ s.x = S.backSubstitute := by
  have hsame : SameOutcome B n (B.sweep t) (Gauss.eliminate .diagonal t B.augmented) :=
    sameOutcome_sweepRows ht B n (Nat.le_refl n)
  have hwritten (i : Fin n) : B.Written t S i := written_of_sweepRows hS i.isLt
  rw [hS] at hsame
  rcases hsame.ok_or_error with ⟨S', P, hS', hP, hstep⟩ | ⟨b, g, hb, -⟩
  · cases hS'
    refine ⟨P.solved .diagonal, Gauss.solve_eq_ok_iff.mpr ⟨P, hP, rfl⟩, ?_⟩
    show Gauss.backSubstitute P.matrix = S.backSubstitute
    rw [hstep.finished.1, backSubstitute_eq hwritten]
  · cases hb

end Band

/-- In exact arithmetic, for every tridiagonal system: the residual that is computed from the three
    diagonals is, row by row, what the dense matrix makes of a vector less the right-hand side; and
    if the sweep succeeds, the unknowns that it gives make the residual vanish in every row, and no
    other vector does. -/
theorem sweep_sound {t : Rat} (ht : 0 < t) (B : Band Rat n) :
    (∀ (x : Vector Rat n) (i : Fin n),
      (B.residual x)[i] = (Dense.residual B.toDense B.rhs x)[i]) ∧
    ∀ S, B.sweep t = .ok S →
      (∀ i : Fin n, (B.residual S.backSubstitute)[i] = 0) ∧
      ∀ x : Vector Rat n, (∀ i : Fin n, (B.residual x)[i] = 0) → x = S.backSubstitute := by
  refine ⟨B.getElem_residual_eq_dense, fun S hS => ?_⟩
  obtain ⟨s, hs, hx⟩ := Band.exists_solve_of_sweep ht hS
  have hiff (x : Vector Rat n) : (∀ i : Fin n, (B.residual x)[i] = 0) ↔ x = S.backSubstitute := by
    rw [← B.isSolution_augmented_iff_residual, Gauss.isSolution_iff_of_solve_diagonal ht hs, hx]
  exact ⟨(hiff _).mpr rfl, fun x => (hiff x).mp⟩

/-- Neither diagonal is the other here, and the corners, which belong to no unknown, are not zero. -/
theorem sweep_sound_three_rows :
    ∃ S, Band.sweep (1 / 1000000 : Rat) ⟨#v[7, 1, 3], #v[2, 4, 5], #v[1, 2, 7], #v[3, 7, 8]⟩ =
        .ok S ∧ S.backSubstitute = #v[1, 1, 1] ∧
      (∀ i : Fin 3, (Band.residual ⟨#v[7, 1, 3], #v[2, 4, 5], #v[1, 2, 7], #v[3, 7, 8]⟩
        S.backSubstitute)[i] = 0) ∧
      ∀ x : Vector Rat 3, (∀ i : Fin 3,
        (Band.residual ⟨#v[7, 1, 3], #v[2, 4, 5], #v[1, 2, 7], #v[3, 7, 8]⟩ x)[i] = 0) →
          x = S.backSubstitute := by
  have hend : (match Band.sweep (1 / 1000000 : Rat)
      ⟨#v[7, 1, 3], #v[2, 4, 5], #v[1, 2, 7], #v[3, 7, 8]⟩ with
      | .ok S => S.backSubstitute == #v[1, 1, 1]
      | .error _ => false) = true := by
    decide +kernel
  split at hend
  · rename_i S hS
    exact ⟨S, hS, eq_of_beq hend, (sweep_sound (by norm_num) _).2 S hS⟩
  · cases hend

end LinearSystems.Tridiagonal
