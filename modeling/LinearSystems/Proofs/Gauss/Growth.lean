import Mathlib
import LinearSystems.Proofs.Gauss.NearSingular

/-!
# Growth of the coefficients

In exact arithmetic a step of complete pivoting takes from each row at most the pivot row itself,
whose entries are no larger than the pivot. So what is left after the step is at most twice as large
as its pivot, and its pivot is itself one of the coefficients that were left before: over a run the
coefficients at most double from step to step, and so do the pivots.
-/

namespace LinearSystems.Gauss

variable {n : Nat} {t : Rat} {M : Dense Rat n (n + 1)}

/-- The largest magnitude of a coefficient. -/
def largestCoefficient (hn : 0 < n) (M : Dense Rat n (n + 1)) : Rat :=
  Finset.univ.sup' ⟨(⟨0, hn⟩, ⟨0, hn⟩), Finset.mem_univ _⟩
    fun p : Fin n × Fin n => |M[p.1][p.2.castSucc]|

theorem abs_le_largestCoefficient (hn : 0 < n) (M : Dense Rat n (n + 1)) (r c : Fin n) :
    |M[r][c.castSucc]| ≤ largestCoefficient hn M :=
  Finset.le_sup' (fun p : Fin n × Fin n => |M[p.1][p.2.castSucc]|) (Finset.mem_univ (r, c))

namespace Progress

/-- No row loses more than once the pivot row. -/
theorem abs_factor_le_one (P : Progress Rat n) {i j : Fin n} (hj : i < j) :
    |(P.arrange .complete i).matrix[j][i.castSucc] /
      (P.arrange .complete i).matrix[i][i.castSucc]| ≤ 1 := by
  rw [abs_div]
  exact div_le_one_of_le₀ (abs_arrange_le_abs_pivotAt P hj.le le_rfl) (abs_nonneg _)

/-- What a step leaves is at most twice as large as its pivot. -/
theorem abs_accepted_le (P : Progress Rat n) {i r c : Fin n} (hr : i < r) (hc : i < c) :
    |(P.accepted .complete i).matrix[r][c.castSucc]| ≤ 2 * |P.pivotAt .complete i| := by
  have hentry : (P.accepted .complete i).matrix[r][c.castSucc] =
      (P.arrange .complete i).matrix[r][c.castSucc] -
        (P.arrange .complete i).matrix[r][i.castSucc] /
          (P.arrange .complete i).matrix[i][i.castSucc] *
            (P.arrange .complete i).matrix[i][c.castSucc] := by
    rw [accepted, getElem_eliminateBelow, if_pos ⟨hr, Fin.castSucc_le_castSucc_iff.mpr hc.le⟩]
  have hfactor := P.abs_factor_le_one hr
  have hrow : |(P.arrange .complete i).matrix[i][c.castSucc]| ≤ |P.pivotAt .complete i| :=
    abs_arrange_le_abs_pivotAt P le_rfl hc.le
  have htaken := mul_le_mul hfactor hrow (abs_nonneg _) zero_le_one
  rw [← abs_mul, one_mul] at htaken
  calc |(P.accepted .complete i).matrix[r][c.castSucc]|
      ≤ _ + _ := by
        rw [hentry]
        exact abs_sub _ _
    _ ≤ |P.pivotAt .complete i| + |P.pivotAt .complete i| :=
        add_le_add (abs_arrange_le_abs_pivotAt P hr.le hc.le) htaken
    _ = 2 * |P.pivotAt .complete i| := (two_mul _).symm

/-- A bound on the coefficients that are left bounds the pivot. -/
theorem abs_pivotAt_le {P : Progress Rat n} {i : Fin n} {B : Rat}
    (h : ∀ r c : Fin n, i ≤ r → i ≤ c → |P.matrix[r][c.castSucc]| ≤ B) :
    |P.pivotAt .complete i| ≤ B := by
  obtain ⟨r, c, hr, hc, hpivot⟩ := exists_pivotAt_eq .complete P i
  rw [hpivot]
  exact h r c hr hc

/-- The coefficients that are left at most double from step to step. -/
theorem abs_le_of_after (hn : 0 < n) {k : Nat} {hk : k ≤ n} {P : Progress Rat n}
    (hP : after .complete t M k hk = .ok P) :
    ∀ r c : Fin n, k ≤ r.val → k ≤ c.val →
      |P.matrix[r][c.castSucc]| ≤ 2 ^ k * largestCoefficient hn M := by
  refine after_invariant (fun k P => ∀ r c : Fin n, k ≤ r.val → k ≤ c.val →
    |P.matrix[r][c.castSucc]| ≤ 2 ^ k * largestCoefficient hn M) ?_ ?_ hP
  · intro r c _ _
    rw [pow_zero, one_mul]
    exact abs_le_largestCoefficient hn M r c
  · intro k hk Q hbound _ r c hr hc
    calc |(Q.accepted .complete ⟨k, hk⟩).matrix[r][c.castSucc]|
        ≤ 2 * |Q.pivotAt .complete ⟨k, hk⟩| := Q.abs_accepted_le hr hc
      _ ≤ 2 * (2 ^ k * largestCoefficient hn M) :=
          mul_le_mul_of_nonneg_left (abs_pivotAt_le hbound) zero_le_two
      _ = 2 ^ (k + 1) * largestCoefficient hn M := by ring

/-- The pivots so far at most double one after the other, and what is left is at most twice the last
    of them. -/
structure Doubles (k : Nat) (P : Progress Rat n) : Prop where
  pivots : P.pivots.IsChain fun v w => |w| ≤ 2 * |v|
  left : ∀ v ∈ P.pivots.getLast?, ∀ r c : Fin n, k ≤ r.val → k ≤ c.val →
    |P.matrix[r][c.castSucc]| ≤ 2 * |v|

/-- A step keeps this, whether or not its pivot passes the test. -/
theorem Doubles.accepted {i : Fin n} {P : Progress Rat n} (h : Doubles i.val P) :
    Doubles (i.val + 1) (P.accepted .complete i) where
  pivots := by
    refine List.isChain_append.mpr ⟨h.pivots, List.isChain_singleton _, ?_⟩
    intro v hv w hw
    obtain rfl : P.pivotAt .complete i = w := Option.some.inj hw
    exact abs_pivotAt_le (h.left v hv)
  left := by
    intro v hv r c hr hc
    rw [Progress.accepted, List.getLast?_concat] at hv
    obtain rfl : P.pivotAt .complete i = v := Option.some.inj hv
    exact P.abs_accepted_le hr hc

theorem doubles_of_after {k : Nat} {hk : k ≤ n} {P : Progress Rat n}
    (hP : after .complete t M k hk = .ok P) : Doubles k P := by
  refine after_invariant Doubles ⟨List.isChain_nil, ?_⟩ ?_ hP
  · intro v hv
    cases hv
  · intro k hk Q hQ _
    exact hQ.accepted (i := ⟨k, hk⟩)

end Progress

/-- In exact arithmetic complete pivoting bounds the growth of the coefficients, in every run,
    whether or not it breaks down later: at every step that it comes to, no row loses more than once
    the pivot row, and the coefficients that are left are at most `2 ^ k` times the largest one of
    the system after `k` steps; and each pivot, the refused one included, is at most twice the one
    before it. -/
theorem complete_pivoting_bounds_growth (hn : 0 < n) (t : Rat) (M : Dense Rat n (n + 1)) :
    (∀ (k : Fin n) (P : Progress Rat n), Progress.after .complete t M k k.isLt.le = .ok P →
      (∀ j : Fin n, k < j → |(P.arrange .complete k).matrix[j][k.castSucc] /
        (P.arrange .complete k).matrix[k][k.castSucc]| ≤ 1) ∧
      ∀ r c : Fin n, k ≤ r → k ≤ c →
        |P.matrix[r][c.castSucc]| ≤ 2 ^ k.val * largestCoefficient hn M) ∧
    (∀ P, eliminate .complete t M = .ok P → P.pivots.IsChain fun v w => |w| ≤ 2 * |v|) ∧
    ∀ b, eliminate .complete t M = .error b →
      (b.progress.pivots ++ [b.pivot]).IsChain fun v w => |w| ≤ 2 * |v| := by
  refine ⟨?_, ?_, ?_⟩
  · intro k P hP
    exact ⟨fun j hj => P.abs_factor_le_one hj, Progress.abs_le_of_after hn hP⟩
  · intro P hP
    exact (Progress.doubles_of_after hP).pivots
  · intro b hb
    obtain ⟨k, hk, P, hP, -, rfl⟩ := Progress.exists_refused_of_after_eq_error hb
    exact (Progress.doubles_of_after hP).accepted (i := ⟨k, hk⟩) |>.pivots

/-- Both bounds are attained: the largest coefficient is one, and after a step what is left is minus
    two, which is the second pivot. -/
theorem complete_pivoting_bounds_growth_two_rows :
    largestCoefficient Nat.two_pos #v[#v[1, 1, 0], #v[1, -1, 0]] = 1 ∧
    (∃ P : Progress Rat 2,
      Progress.after .complete (1 / 1000000) #v[#v[1, 1, 0], #v[1, -1, 0]] 1 one_le_two = .ok P ∧
        P.matrix[(1 : Fin 2)][(1 : Fin 2).castSucc] = -2 ∧
        |P.matrix[(1 : Fin 2)][(1 : Fin 2).castSucc]| ≤
          2 ^ 1 * largestCoefficient Nat.two_pos #v[#v[1, 1, 0], #v[1, -1, 0]]) ∧
    ∃ P : Progress Rat 2,
      eliminate .complete (1 / 1000000) #v[#v[1, 1, 0], #v[1, -1, 0]] = .ok P ∧
        P.pivots = [1, -2] ∧ P.pivots.IsChain fun v w => |w| ≤ 2 * |v| := by
  have hbounds := complete_pivoting_bounds_growth Nat.two_pos (1 / 1000000)
    #v[#v[1, 1, 0], #v[1, -1, 0]]
  refine ⟨by decide +kernel, ?_, ?_⟩
  · have hend : (match Progress.after .complete (1 / 1000000 : Rat)
          #v[#v[1, 1, 0], #v[1, -1, 0]] 1 one_le_two with
        | .ok P => P.matrix[(1 : Fin 2)][(1 : Fin 2).castSucc] == -2
        | .error _ => false) = true := by
      decide +kernel
    split at hend
    · rename_i P hP
      exact ⟨P, hP, eq_of_beq hend, (hbounds.1 1 P hP).2 1 1 le_rfl le_rfl⟩
    · cases hend
  · have hend : (match eliminate .complete (1 / 1000000 : Rat) #v[#v[1, 1, 0], #v[1, -1, 0]] with
        | .ok P => P.pivots == [1, -2]
        | .error _ => false) = true := by
      decide +kernel
    split at hend
    · rename_i P hP
      exact ⟨P, hP, eq_of_beq hend, hbounds.2.1 P hP⟩
    · cases hend

end LinearSystems.Gauss
