import LinearSystems.Gauss.Solution
import LinearSystems.Proofs.Gauss.Soundness
import LinearSystems.Proofs.Tridiagonal.Step

/-!
# The sweep as elimination

In exact arithmetic the sweep of a tridiagonal system and plain elimination of its dense matrix do
the same: row by row they test the same value, and in the end they have the same solution. A step
of the elimination changes the next row only, because the rows further down have nothing in its
column, and what it leaves in that row is what the sweep divides.
-/

namespace LinearSystems.Tridiagonal

open Gauss (Progress Pivoting eliminateBelow)

namespace Band

/-- The augmented matrix of the system. -/
def augmented {n : Nat} (B : Band Rat n) : Dense Rat n (n + 1) :=
  Dense.glue B.toDense B.rhs

/-- The triangular system that the swept rows stand for: each divisor on the diagonal, the upper
    entry next to it, and the constant on the right. -/
def bidiagonal {n : Nat} (B : Band Rat n) (S : Sweep Rat n) : Dense Rat n (n + 1) :=
  Dense.glue
    (Dense.ofFn fun i j =>
      if i = j then B.divisor S i else if j.val = i.val + 1 then B.upper[i] else 0)
    (Vector.ofFn (B.constant S))

variable {n : Nat}

theorem getElem_augmented_castSucc (B : Band Rat n) (i j : Fin n) :
    B.augmented[i][j.castSucc] =
      if i = j then B.diag[i] else if i.val = j.val + 1 then B.lower[i]
      else if j.val = i.val + 1 then B.upper[i] else 0 := by
  rw [augmented, Dense.getElem_glue_castSucc, toDense, Dense.getElem_ofFn]
  rcases lt_trichotomy i j with hlt | rfl | hgt
  · have hne : i ≠ j := hlt.ne
    have hlower : i.val ≠ j.val + 1 := by omega
    simp only [hne, hlower, if_false, eq_comm, zero_add]
  · have hself : i.val ≠ i.val + 1 := by omega
    have hself' : i.val + 1 ≠ i.val := by omega
    simp only [hself, hself', if_true, if_false, add_zero]
  · have hne : i ≠ j := hgt.ne'
    have hupper : i.val + 1 ≠ j.val := by omega
    have hupper' : j.val ≠ i.val + 1 := by omega
    simp only [hne, hupper, hupper', if_false, zero_add, add_zero]

theorem getElem_augmented_last (B : Band Rat n) (i : Fin n) :
    B.augmented[i][Fin.last n] = B.rhs[i] := by
  rw [augmented, Dense.getElem_glue_last]

theorem getElem_bidiagonal_castSucc (B : Band Rat n) (S : Sweep Rat n) (i j : Fin n) :
    (B.bidiagonal S)[i][j.castSucc] =
      if i = j then B.divisor S i else if j.val = i.val + 1 then B.upper[i] else 0 := by
  rw [bidiagonal, Dense.getElem_glue_castSucc, Dense.getElem_ofFn]

theorem getElem_bidiagonal_last (B : Band Rat n) (S : Sweep Rat n) (i : Fin n) :
    (B.bidiagonal S)[i][Fin.last n] = B.constant S i := by
  rw [bidiagonal, Dense.getElem_glue_last, getElem_fin, Vector.getElem_ofFn]

/-- The first row stands as it is swept before anything is done. -/
theorem getElem_augmented_of_eq_zero (B : Band Rat n) (S : Sweep Rat n) {i : Fin n}
    (hi : i.val = 0) (l : Fin (n + 1)) : B.augmented[i][l] = (B.bidiagonal S)[i][l] := by
  refine Fin.lastCases ?_ ?_ l
  · rw [getElem_augmented_last, getElem_bidiagonal_last, B.constant_of_eq_zero S hi]
  · intro j
    have hlower : i.val ≠ j.val + 1 := by omega
    rw [getElem_augmented_castSucc, getElem_bidiagonal_castSucc, B.divisor_of_eq_zero S hi,
      if_neg hlower]

/-- The rows up to the swept one keep their reduced form. -/
theorem getElem_bidiagonal_swept_of_le (B : Band Rat n) (S : Sweep Rat n) {i j : Fin n}
    (hj : j ≤ i) (l : Fin (n + 1)) :
    (B.bidiagonal (B.swept S i))[j][l] = (B.bidiagonal S)[j][l] := by
  refine Fin.lastCases ?_ ?_ l
  · rw [getElem_bidiagonal_last, getElem_bidiagonal_last, B.constant_swept_of_le S hj]
  · intro m
    rw [getElem_bidiagonal_castSucc, getElem_bidiagonal_castSucc, B.divisor_swept_of_le S hj]

/-- The row after the swept one loses its multiple of the swept row, and what is left of it is its
    reduced form. -/
theorem getElem_bidiagonal_swept_succ (B : Band Rat n) (S : Sweep Rat n) {i j : Fin n}
    (hj : j.val = i.val + 1) (hdivisor : B.divisor S i ≠ 0) {l : Fin (n + 1)}
    (hl : i.castSucc ≤ l) :
    (B.bidiagonal (B.swept S i))[j][l] =
      B.augmented[j][l] - B.lower[j] / B.divisor S i * (B.bidiagonal S)[i][l] := by
  revert hl
  refine Fin.lastCases ?_ ?_ l
  · intro _
    rw [getElem_bidiagonal_last, getElem_bidiagonal_last, getElem_augmented_last,
      B.constant_of_eq_succ _ hj, B.getElem_beta_swept]
    ring
  · intro m hm
    have him : i.val ≤ m.val := hm
    rw [getElem_bidiagonal_castSucc, getElem_bidiagonal_castSucc, getElem_augmented_castSucc,
      B.divisor_of_eq_succ _ hj, B.getElem_alpha_swept S (hj ▸ j.isLt)]
    -- The column of the swept row is cancelled, the next one is the diagonal of the new row, and
    -- in all others the swept row has nothing.
    rcases Nat.eq_or_lt_of_le him with heq | hlt
    · obtain rfl : i = m := Fin.ext heq
      have hji : j ≠ i := fun h => by omega
      have hij : i.val ≠ i.val + 1 + 1 := by omega
      simp only [hji, hij, hj, if_true, if_false]
      rw [div_mul_cancel₀ _ hdivisor, sub_self]
    · by_cases hjm : j = m
      · subst hjm
        have hij : i ≠ j := fun h => by omega
        simp only [hij, hj, if_true, if_false]
        ring
      · have him' : i ≠ m := fun h => by omega
        have hnext : m.val ≠ i.val + 1 := fun h => hjm (Fin.ext (hj.trans h.symm))
        have hlower : j.val ≠ m.val + 1 := by omega
        simp only [hjm, him', hnext, hlower, if_false, mul_zero, sub_zero]

end Band

/-- What a sweep of `k` rows and `k` steps of the elimination have in common: the rows up to `k`
    are in their reduced form, those after it are as they were given, and the pivots are the
    divisors of the swept rows. -/
structure Lockstep {n : Nat} (B : Band Rat n) (k : Nat) (S : Sweep Rat n) (P : Progress Rat n) :
    Prop where
  reduced : ∀ (j : Fin n) (l : Fin (n + 1)), j.val ≤ k →
    P.matrix[j][l] = (B.bidiagonal S)[j][l]
  given : ∀ (j : Fin n) (l : Fin (n + 1)), k < j.val → P.matrix[j][l] = B.augmented[j][l]
  length_pivots : P.pivots.length = k
  pivots : ∀ j : Fin n, j.val < k → P.pivots[j.val]? = some (B.divisor S j)

namespace Lockstep

variable {n : Nat} {B : Band Rat n} {S : Sweep Rat n} {P : Progress Rat n}

theorem start (B : Band Rat n) (S : Sweep Rat n) :
    Lockstep B 0 S (Progress.start B.augmented) where
  reduced := fun _ l hj => B.getElem_augmented_of_eq_zero S (Nat.le_zero.mp hj) l
  given := fun _ _ _ => rfl
  length_pivots := rfl
  pivots := fun _ hj => absurd hj (Nat.not_lt_zero _)

/-- The next step tests the value that the next row divides by. -/
theorem pivotAt_eq {k : Nat} (h : Lockstep B k S P) (hk : k < n) :
    P.pivotAt .diagonal ⟨k, hk⟩ = B.divisor S ⟨k, hk⟩ := by
  show P.matrix[(⟨k, hk⟩ : Fin n)][(⟨k, hk⟩ : Fin n).castSucc] = _
  rw [h.reduced ⟨k, hk⟩ _ (Nat.le_refl k), Band.getElem_bidiagonal_castSucc, if_pos rfl]

/-- A row further down than the next has nothing in the column of step `k`. -/
theorem matrix_eq_zero {k : Nat} (h : Lockstep B k S P) (hk : k < n) {j : Fin n}
    (hj : k + 1 < j.val) : P.matrix[j][(⟨k, hk⟩ : Fin n).castSucc] = 0 := by
  have hne : j ≠ ⟨k, hk⟩ := Fin.ne_of_val_ne (by simp only; omega)
  have hlower : j.val ≠ k + 1 := by omega
  have hupper : k ≠ j.val + 1 := by omega
  rw [h.given j _ (by omega), Band.getElem_augmented_castSucc]
  simp only [hne, hlower, hupper, if_false]

/-- What the next row has in the column of step `k` is its lower entry. -/
theorem matrix_eq_lower {k : Nat} (h : Lockstep B k S P) (hk : k < n) {j : Fin n}
    (hj : j.val = k + 1) : P.matrix[j][(⟨k, hk⟩ : Fin n).castSucc] = B.lower[j] := by
  have hne : j ≠ ⟨k, hk⟩ := Fin.ne_of_val_ne (by simp only; omega)
  rw [h.given j _ (by omega), Band.getElem_augmented_castSucc, if_neg hne, if_pos hj]

/-- Step `k` brings the next row to its reduced form. -/
theorem reduced_accepted {k : Nat} (h : Lockstep B k S P) (hk : k < n)
    (hdivisor : B.divisor S ⟨k, hk⟩ ≠ 0) {j : Fin n} (hj : j.val = k + 1) (l : Fin (n + 1)) :
    (eliminateBelow P.matrix ⟨k, hk⟩)[j][l] = (B.bidiagonal (B.swept S ⟨k, hk⟩))[j][l] := by
  have hlt : (⟨k, hk⟩ : Fin n) < j := by show k < j.val; omega
  rw [Gauss.getElem_eliminateBelow]
  by_cases hl : (⟨k, hk⟩ : Fin n).castSucc ≤ l
  · rw [if_pos ⟨hlt, hl⟩, B.getElem_bidiagonal_swept_succ S hj hdivisor hl,
      h.given j l (by omega), h.matrix_eq_lower hk hj, h.reduced ⟨k, hk⟩ _ (Nat.le_refl k),
      h.reduced ⟨k, hk⟩ l (Nat.le_refl k), Band.getElem_bidiagonal_castSucc, if_pos rfl]
  · rw [if_neg fun hboth => hl hboth.2, h.given j l (by omega)]
    have hlk : l.val < k := not_le.mp hl
    obtain ⟨m, rfl⟩ : ∃ m : Fin n, l = m.castSucc := ⟨⟨l.val, by omega⟩, rfl⟩
    have hmk : m.val < k := hlk
    have hne : j ≠ m := Fin.ne_of_val_ne (by omega)
    have hlower : j.val ≠ m.val + 1 := by omega
    have hupper : m.val ≠ j.val + 1 := by omega
    rw [Band.getElem_augmented_castSucc, Band.getElem_bidiagonal_castSucc]
    simp only [hne, hlower, hupper, if_false]

/-- Sweeping a row and eliminating its unknown keep in step. -/
theorem succ {k : Nat} (h : Lockstep B k S P) (hk : k < n)
    (hdivisor : B.divisor S ⟨k, hk⟩ ≠ 0) :
    Lockstep B (k + 1) (B.swept S ⟨k, hk⟩) (P.accepted .diagonal ⟨k, hk⟩) where
  reduced := by
    intro j l hj
    show (eliminateBelow P.matrix ⟨k, hk⟩)[j][l] = _
    rcases Nat.lt_or_eq_of_le hj with hlt | heq
    · have hle : j ≤ ⟨k, hk⟩ := Nat.le_of_lt_succ hlt
      rw [Gauss.getElem_eliminateBelow_of_le P.matrix hle,
        B.getElem_bidiagonal_swept_of_le S hle, h.reduced j l hle]
    · exact h.reduced_accepted hk hdivisor heq l
  given := by
    intro j l hj
    show (eliminateBelow P.matrix ⟨k, hk⟩)[j][l] = _
    -- The factor of a row further down is zero, so the row loses nothing.
    rw [Gauss.getElem_eliminateBelow, h.matrix_eq_zero hk hj, zero_div, zero_mul, sub_zero,
      ite_self, h.given j l (by omega)]
  length_pivots := by
    rw [Progress.length_pivots_accepted, h.length_pivots]
  pivots := by
    intro j hj
    have hle : j ≤ ⟨k, hk⟩ := Nat.le_of_lt_succ hj
    rw [B.divisor_swept_of_le S hle]
    rcases Nat.lt_or_eq_of_le (Nat.le_of_lt_succ hj) with hlt | rfl
    · rw [P.getElem?_pivots_accepted_of_lt _ _ (h.length_pivots ▸ hlt), h.pivots j hlt]
    · have hrecorded := P.getElem?_pivots_accepted .diagonal j
      rw [h.length_pivots, h.pivotAt_eq hk] at hrecorded
      exact hrecorded

end Lockstep

/-- Whether a sweep of `k` rows and `k` steps of the elimination have come to the same: either both
    go on in step, or both have stopped at the same row with the same value. -/
def SameOutcome {n : Nat} (B : Band Rat n) (k : Nat) :
    Except (Breakdown Rat n) (Sweep Rat n) →
      Except (Gauss.Breakdown Rat n) (Progress Rat n) → Prop
  | .ok S, .ok P => Lockstep B k S P
  | .error b, .error g => g.step = b.row ∧ g.pivot = b.value
  | _, _ => False

variable {n : Nat} {t : Rat}

/-- Two outcomes that are the same are of the same kind. -/
theorem SameOutcome.ok_or_error {B : Band Rat n} {k : Nat}
    {sweep : Except (Breakdown Rat n) (Sweep Rat n)}
    {run : Except (Gauss.Breakdown Rat n) (Progress Rat n)} (h : SameOutcome B k sweep run) :
    (∃ S P, sweep = .ok S ∧ run = .ok P ∧ Lockstep B k S P) ∨
      ∃ b g, sweep = .error b ∧ run = .error g ∧ g.step = b.row ∧ g.pivot = b.value := by
  cases sweep with
  | error b =>
    cases run with
    | error g => exact .inr ⟨b, g, rfl, rfl, h⟩
    | ok P => exact h.elim
  | ok S =>
    cases run with
    | error g => exact h.elim
    | ok P => exact .inl ⟨S, P, rfl, rfl, h⟩

/-- Row by row the sweep and the elimination take the same decision. -/
theorem sameOutcome_sweepRows (ht : 0 < t) (B : Band Rat n) (k : Nat) (hk : k ≤ n) :
    SameOutcome B k (B.sweepRows t k hk) (Progress.after .diagonal t B.augmented k hk) := by
  induction k with
  | zero => exact Lockstep.start B _
  | succ k ih =>
    rw [Band.sweepRows_succ, Progress.after_succ]
    rcases (ih (Nat.le_of_succ_le hk)).ok_or_error with
      ⟨S, P, hS, hP, hstep⟩ | ⟨b, g, hS, hP, hsame⟩
    · rw [hS, hP]
      simp only [Except.bind, Band.sweepRow_eq, Progress.advance_eq, hstep.pivotAt_eq hk]
      cases hbelow : Scalar.isBelow t (B.divisor S ⟨k, hk⟩) with
      | true => exact ⟨rfl, hstep.pivotAt_eq hk⟩
      | false => exact hstep.succ hk (Scalar.ne_zero_of_isBelow_eq_false ht hbelow)
    · rw [hS, hP]
      exact hsame

/-- Of the unknowns after its own a row of the triangular system takes the next one. -/
theorem tail_bidiagonal_of_eq_succ (B : Band Rat n) (S : Sweep Rat n) (x : Vector Rat n)
    {i j : Fin n} (hj : j.val = i.val + 1) :
    Gauss.tail (B.bidiagonal S) i x = B.upper[i] * x[j] := by
  have hterm (k : Fin n) : (if i < k then (B.bidiagonal S)[i][k.castSucc] * x[k] else 0) =
      if k = j then B.upper[i] * x[j] else 0 := by
    by_cases hk : k = j
    · subst hk
      have hlt : i < k := by omega
      rw [if_pos hlt, if_pos rfl, B.getElem_bidiagonal_castSucc, if_neg hlt.ne, if_pos hj]
    · have hnext : k.val ≠ i.val + 1 := fun h => hk (Fin.ext (h.trans hj.symm))
      rw [if_neg hk, B.getElem_bidiagonal_castSucc, if_neg hnext]
      split_ifs with hlt heq
      · exact absurd heq hlt.ne
      · exact zero_mul _
      · rfl
  rw [Gauss.tail_eq_sum, Finset.sum_congr rfl fun k _ => hterm k,
    Finset.sum_ite_eq' Finset.univ j, if_pos (Finset.mem_univ j)]

/-- The last row of a triangular system has no unknown after its own. -/
theorem tail_of_last (M : Dense Rat n (n + 1)) (x : Vector Rat n) {i : Fin n}
    (hi : n ≤ i.val + 1) : Gauss.tail M i x = 0 := by
  rw [Gauss.tail_eq_sum]
  apply Finset.sum_eq_zero
  intro k _
  have hlt : ¬ i < k := by omega
  rw [if_neg hlt]

/-- A row of the triangular system asks for the value that its swept row asks for. -/
theorem Band.Written.solveRow_eq {B : Band Rat n} {S : Sweep Rat n} {i : Fin n}
    (h : B.Written t S i) (x : Vector Rat n) :
    S.solveRow i x = Gauss.solveRow (B.bidiagonal S) i x := by
  rw [Gauss.solveRow, getElem_bidiagonal_last, getElem_bidiagonal_castSucc, if_pos rfl, sub_div]
  rcases Nat.lt_or_ge (i.val + 1) n with hi | hi
  · rw [tail_bidiagonal_of_eq_succ B S x (j := ⟨i.val + 1, hi⟩) rfl, Sweep.solveRow,
      following?_of_eq_succ (j := ⟨i.val + 1, hi⟩) rfl]
    simp only
    rw [h.beta, h.alpha hi, div_mul_eq_mul_div]
  · rw [tail_of_last _ x hi, Sweep.solveRow, following?_of_last hi, zero_div, sub_zero]
    exact h.beta

/-- The unknowns of the sweep are those of the triangular system. -/
theorem backSubstitute_eq {B : Band Rat n} {S : Sweep Rat n} (h : ∀ i, B.Written t S i) :
    S.backSubstitute = Gauss.backSubstitute (B.bidiagonal S) := by
  rw [Gauss.eq_backSubstitute_iff]
  intro i
  rw [← (h i).solveRow_eq]
  exact getElem_backSubstitute S i

/-- A sweep of all rows leaves the elimination with the triangular system that it stands for, and
    the divisors as its pivots. -/
theorem Lockstep.finished {B : Band Rat n} {S : Sweep Rat n} {P : Progress Rat n}
    (h : Lockstep B n S P) : P.matrix = B.bidiagonal S ∧ P.pivots = List.ofFn (B.divisor S) := by
  refine ⟨?_, ?_⟩
  · apply Dense.ext_entries
    intro j l
    exact h.reduced j l (Nat.le_of_lt j.isLt)
  · apply List.ext_getElem
    · rw [h.length_pivots, List.length_ofFn]
    · intro i hi hi'
      rw [List.length_ofFn] at hi'
      have hpivot := h.pivots ⟨i, hi'⟩ hi'
      rw [List.getElem?_eq_getElem hi] at hpivot
      rw [List.getElem_ofFn]
      exact Option.some.inj hpivot

/-- In exact arithmetic the sweep and plain elimination of the dense matrix agree on every
    tridiagonal system: one has a solution exactly if the other has; they have the same solution,
    and the pivots are the divisors of the sweep; and if they fail, it is for the same value in the
    same row, which elimination reports as the step after the one that the sweep reports, because
    it counts from one. -/
theorem sweep_agrees_with_elimination {t : Rat} (ht : 0 < t) (B : Band Rat n) :
    ((∃ S, B.sweep t = .ok S) ↔ ∃ s, Gauss.solve .diagonal t B.augmented = .ok s) ∧
    (∀ S s, B.sweep t = .ok S → Gauss.solve .diagonal t B.augmented = .ok s →
      s.x = S.backSubstitute ∧ s.pivots = List.ofFn (B.divisor S)) ∧
    (∀ b g, B.sweep t = .error b → Gauss.solve .diagonal t B.augmented = .error g →
      g.pivot = b.value ∧
        (Pivoting.smallDivisor .diagonal g.step).step = (SmallDivisor.sweep b.row).step + 1) := by
  have hsame : SameOutcome B n (B.sweep t) (Gauss.eliminate .diagonal t B.augmented) :=
    sameOutcome_sweepRows ht B n (Nat.le_refl n)
  rcases hsame.ok_or_error with ⟨S, P, hS, hP, hstep⟩ | ⟨b, g, hS, hP, hrow, hvalue⟩
  · obtain ⟨hmatrix, hpivots⟩ := hstep.finished
    have hwritten (i : Fin n) : B.Written t S i := Band.written_of_sweepRows hS i.isLt
    rw [hS, Gauss.solve_eq_ok_iff.mpr ⟨P, hP, rfl⟩]
    refine ⟨?_, ?_, ?_⟩
    · simp
    · rintro S' s hok hs
      cases hok
      cases hs
      refine ⟨?_, hpivots⟩
      show Gauss.backSubstitute P.matrix = S.backSubstitute
      rw [hmatrix, backSubstitute_eq hwritten]
    · rintro b g hb
      cases hb
  · rw [hS, Gauss.solve_eq_error_iff.mpr hP]
    refine ⟨?_, ?_, ?_⟩
    · simp
    · rintro S s hok
      cases hok
    · rintro b' g' hb hg
      cases hb
      cases hg
      exact ⟨hvalue, congrArg (fun i : Fin n => i.val + 1) hrow⟩

/-- The first system is solved by both, the second one is given up by both in its last row. -/
theorem sweep_agrees_with_elimination_two_rows :
    (∃ S s,
      Band.sweep (1 / 1000000 : Rat) ⟨#v[0, 1], #v[2, 1], #v[1, 0], #v[4, 3]⟩ = .ok S ∧
        Gauss.solve .diagonal (1 / 1000000 : Rat)
          (Band.augmented ⟨#v[0, 1], #v[2, 1], #v[1, 0], #v[4, 3]⟩) = .ok s ∧
        s.x = S.backSubstitute ∧
        s.pivots = List.ofFn (Band.divisor ⟨#v[0, 1], #v[2, 1], #v[1, 0], #v[4, 3]⟩ S)) ∧
    ∃ b g,
      Band.sweep (1 / 1000000 : Rat) ⟨#v[0, 1], #v[2, 1], #v[2, 0], #v[4, 3]⟩ = .error b ∧
        Gauss.solve .diagonal (1 / 1000000 : Rat)
          (Band.augmented ⟨#v[0, 1], #v[2, 1], #v[2, 0], #v[4, 3]⟩) = .error g ∧
        g.pivot = b.value ∧
        (Pivoting.smallDivisor .diagonal g.step).step = (SmallDivisor.sweep b.row).step + 1 := by
  refine ⟨⟨⟨#v[1 / 2, 0], #v[2, 2]⟩, ⟨#v[1, 2], [2, 1 / 2], none⟩, ?_⟩,
    ⟨⟨1, 0⟩, ⟨1, 0, ⟨#v[#v[2, 2, 4], #v[0, 0, 1]], #v[0, 1], [2]⟩⟩, ?_⟩⟩
  · have hsweep : Band.sweep (1 / 1000000 : Rat) ⟨#v[0, 1], #v[2, 1], #v[1, 0], #v[4, 3]⟩ =
        .ok ⟨#v[1 / 2, 0], #v[2, 2]⟩ := by cbv
    have hsolve : Gauss.solve .diagonal (1 / 1000000 : Rat)
        (Band.augmented ⟨#v[0, 1], #v[2, 1], #v[1, 0], #v[4, 3]⟩) =
        .ok ⟨#v[1, 2], [2, 1 / 2], none⟩ := by cbv
    exact ⟨hsweep, hsolve,
      (sweep_agrees_with_elimination (by norm_num) _).2.1 _ _ hsweep hsolve⟩
  · have hsweep : Band.sweep (1 / 1000000 : Rat) ⟨#v[0, 1], #v[2, 1], #v[2, 0], #v[4, 3]⟩ =
        .error ⟨1, 0⟩ := by cbv
    have hsolve : Gauss.solve .diagonal (1 / 1000000 : Rat)
        (Band.augmented ⟨#v[0, 1], #v[2, 1], #v[2, 0], #v[4, 3]⟩) =
        .error ⟨1, 0, ⟨#v[#v[2, 2, 4], #v[0, 0, 1]], #v[0, 1], [2]⟩⟩ := by cbv
    exact ⟨hsweep, hsolve,
      (sweep_agrees_with_elimination (by norm_num) _).2.2 _ _ hsweep hsolve⟩

end LinearSystems.Tridiagonal
