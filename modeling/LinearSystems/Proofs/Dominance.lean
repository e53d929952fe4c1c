import Mathlib
import LinearSystems.Proofs.Gauss.Dominance
import LinearSystems.Proofs.Tridiagonal.Dominance

/-!
# Dominant systems are accepted

Without pivoting the direct solvers give up systems that have a solution, but none whose diagonal
entries exceed the other entries of their rows together by the threshold of the divisors. The margin
is kept by every step, so it is what the divisors have in the end.
-/

namespace LinearSystems

open Gauss (Progress DominantFrom)

/-- In exact arithmetic, for every threshold: if in every row of `[A|b]` the diagonal entry exceeds
    the other coefficients together by the threshold, then plain elimination succeeds, none of its
    pivots is below the threshold, and before each of its steps, and after the last one, what is left
    exceeds in the same way. And if in every row of a tridiagonal system the diagonal entry exceeds
    its two neighbours together by the threshold, then the sweep succeeds, each of its divisors
    exceeds the upper entry of its row by the threshold, and every `alpha` is below one. -/
theorem dominant_systems_accepted {t : Rat} (ht : 0 < t) :
    (∀ (n : Nat) (A : Dense Rat n n) (b : Vector Rat n),
      (∀ i : Fin n, t + A.offDiagonal i ≤ |A[i][i]|) →
      (∃ P, Gauss.eliminate .diagonal t (Dense.glue A b) = .ok P ∧
        P.pivots.length = n ∧ ∀ v ∈ P.pivots, t ≤ |v|) ∧
      ∀ (k : Nat) (hk : k ≤ n), ∃ P,
        Progress.after .diagonal t (Dense.glue A b) k hk = .ok P ∧ DominantFrom t P.matrix k) ∧
    ∀ (n : Nat) (B : Tridiagonal.Band Rat n),
      (∀ i : Fin n, t + |B.lower[i]| + |B.upper[i]| ≤ |B.diag[i]|) →
      ∃ S, B.sweep t = .ok S ∧ (∀ i : Fin n, t + |B.upper[i]| ≤ |B.divisor S i|) ∧
        ∀ i : Fin n, |S.alpha[i]| < 1 := by
  refine ⟨?_, ?_⟩
  · intro n A b hrows
    have hdominant : DominantFrom t (Dense.glue A b) 0 := Gauss.dominantFrom_zero_iff.mpr hrows
    refine ⟨?_, ?_⟩
    · obtain ⟨P, hP, -, hpivots⟩ := hdominant.exists_after ht n (Nat.le_refl n)
      exact ⟨P, hP, Progress.length_pivots_of_after hP, hpivots⟩
    · intro k hk
      obtain ⟨P, hP, hleft, -⟩ := hdominant.exists_after ht k hk
      exact ⟨P, hP, hleft⟩
  · intro n B hrows
    have hdominant : B.Dominant t := hrows
    obtain ⟨S, hS, halpha⟩ := hdominant.exists_sweepRows ht n (Nat.le_refl n)
    exact ⟨S, hS, hdominant.le_abs_divisor halpha, halpha⟩

/-- The second row of the first system and the middle row of the second one have no more to spare
    than the threshold. -/
theorem dominant_systems_accepted_three_rows :
    ((∃ P, Gauss.eliminate .diagonal (1 / 1000000 : Rat)
        (Dense.glue #v[#v[3, 1, -1], #v[1, 3 + 1 / 1000000, 2], #v[0, 1, 2]] #v[1, 2, 3]) =
          .ok P ∧ P.pivots.length = 3 ∧ ∀ v ∈ P.pivots, 1 / 1000000 ≤ |v|) ∧
      ∃ P, Progress.after .diagonal (1 / 1000000 : Rat)
        (Dense.glue #v[#v[3, 1, -1], #v[1, 3 + 1 / 1000000, 2], #v[0, 1, 2]] #v[1, 2, 3])
          1 (by decide) = .ok P ∧ DominantFrom (1 / 1000000) P.matrix 1) ∧
    ∃ S, Tridiagonal.Band.sweep (1 / 1000000 : Rat)
        ⟨#v[0, 1, 1], #v[-2, 3 + 1 / 1000000, 4], #v[1, 2, 0], #v[1, 2, 3]⟩ = .ok S ∧
      ∀ i : Fin 3, |S.alpha[i]| < 1 := by
  have ht : (0 : Rat) < 1 / 1000000 := by norm_num
  have hrows : ∀ i : Fin 3, (1 / 1000000 : Rat) + Dense.offDiagonal
      #v[#v[3, 1, -1], #v[1, 3 + 1 / 1000000, 2], #v[0, 1, 2]] i ≤
        |(#v[#v[3, 1, -1], #v[1, 3 + 1 / 1000000, 2], #v[0, 1, 2]] : Dense Rat 3 3)[i][i]| := by
    decide +kernel
  have hband : ∀ i : Fin 3, (1 / 1000000 : Rat) + |(#v[0, 1, 1] : Vector Rat 3)[i]| +
      |(#v[1, 2, 0] : Vector Rat 3)[i]| ≤ |(#v[-2, 3 + 1 / 1000000, 4] : Vector Rat 3)[i]| := by
    decide +kernel
  obtain ⟨hend, hsteps⟩ := (dominant_systems_accepted ht).1 3 _ #v[1, 2, 3] hrows
  obtain ⟨S, hS, -, halpha⟩ := (dominant_systems_accepted ht).2 3
    ⟨#v[0, 1, 1], #v[-2, 3 + 1 / 1000000, 4], #v[1, 2, 0], #v[1, 2, 3]⟩ hband
  exact ⟨⟨hend, hsteps 1 (by decide)⟩, S, hS, halpha⟩

end LinearSystems
