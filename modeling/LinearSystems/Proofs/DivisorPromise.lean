import LinearSystems.Proofs.Gauss.Divisor
import LinearSystems.Proofs.Jacobi.Divisor
import LinearSystems.Proofs.Tridiagonal.Divisor

/-!
# The promise about divisors

Which runs of the solvers divide by nothing but numbers of at least the pivot threshold. The
iteration always does. The direct solvers do so exactly if the last value that they divide by is a
number: entries of a system are finite, but the values computed from them may be too large, and an
infinity that meets a zero or another infinity gives a value that is not a number, which the test of
the divisors lets through.
-/

namespace LinearSystems

/-- For every system that passed its checks: elimination, with either way of pivoting, and the sweep
    keep the promise about divisors exactly if they do not return a solution whose last pivot, or
    last divisor, is not a number; the iteration keeps it always. -/
theorem guarded_iff_last_divisor_is_number (G : Gauss.System) (mode : Gauss.Pivoting)
    (T : Tridiagonal.System) (J : Jacobi.System) (s : Jacobi.Settings) :
    (Guarded (Gauss.Required mode G.augmented) (Gauss.Used mode G.augmented) (G.run mode) ↔
      ¬ ∃ r, G.run mode = .ok r ∧ ∃ v, r.params.pivots.getLast? = some v ∧ v.isNaN = true) ∧
    (Guarded (Tridiagonal.Required T.band) (Tridiagonal.Used T.band) T.run ↔
      ¬ ∃ r, T.run = .ok r ∧ ∃ i : Fin T.n, i.val + 1 = T.n ∧
        (T.band.divisor { alpha := r.params.alpha, beta := r.params.beta } i).isNaN = true) ∧
    Guarded (Jacobi.Required J.matrix) (Jacobi.Used J.matrix J.rhs) (J.run s) := by
  refine ⟨?_, ?_, J.guarded s⟩
  · rw [G.guarded_iff mode, Gauss.lost_iff]
  · rw [T.guarded_iff, Tridiagonal.lost_iff]

/-- The quotient of the first column is infinite here, and infinity times the zero above the second
    diagonal entry is not a number. Elimination goes on with it and returns. -/
theorem not_guarded_of_overflow :
    ∃ S : Gauss.System,
      S.toEquations = ⟨2, Nat.two_pos, #v[#v[1e-6, 0, 1], #v[1e308, 1, 1]]⟩ ∧
        (∃ r, S.run .diagonal = .ok r) ∧
        ¬ Guarded (Gauss.Required .diagonal S.augmented) (Gauss.Used .diagonal S.augmented)
          (S.run .diagonal) := by
  have hfinite : ∀ (i : Fin 2) (j : Fin 3),
      (#v[#v[1e-6, 0, 1], #v[1e308, 1, 1]] : Dense Float 2 3)[i][j].isFinite = true := by
    decide +kernel
  have hend : (match Gauss.eliminate .diagonal pivotThreshold
      (#v[#v[1e-6, 0, 1], #v[1e308, 1, 1]] : Dense Float 2 3) with
      | .ok P => P.pivots.getLast?.any (·.isNaN)
      | .error _ => false) = true := by
    decide +kernel
  split at hend
  · rename_i P hP
    obtain ⟨v, hv, hnan⟩ := (Option.any_eq_true _ _).mp hend
    have hrun := Gauss.solve_eq_ok_iff.mpr ⟨P, hP, rfl⟩
    refine ⟨⟨⟨2, Nat.two_pos, #v[#v[1e-6, 0, 1], #v[1e308, 1, 1]]⟩, hfinite⟩, rfl, ?_, ?_⟩
    · rw [Gauss.Equations.run, hrun]
      exact ⟨_, rfl⟩
    · intro hguarded
      exact (Gauss.Equations.guarded_iff _ .diagonal).mp hguarded ⟨P, hP, v, hv, hnan⟩
  · cases hend

end LinearSystems
