import Mathlib
import LinearSystems.Proofs.Gauss.Rearranged
import LinearSystems.Proofs.Gauss.Workbench

/-!
# Pivots are the first largest coefficients

In double precision complete pivoting chooses the first of the largest magnitudes that are left, row
by row, and if some of the coefficients that are left are not numbers, the first of these. So as
long as all of them are numbers the pivot that a step records is their maximum in magnitude, and the
diagonal entry stays where it is if it attains the maximum.
-/

namespace LinearSystems

namespace Double

variable {a b : Float}

/-- Of two numbers one outranks the other exactly if it is larger. -/
theorem outranks_eq_true_iff (ha : a.isNaN = false) (hb : b.isNaN = false) :
    Scalar.outranks a b = true ↔ b < a := by
  have ha' : Scalar.isNaN a = false := ha
  have hb' : Scalar.isNaN b = false := hb
  rw [Scalar.outranks_eq_true_iff, less_eq_true_iff]
  simp only [ha', hb', Bool.false_eq_true, false_or, true_and]

theorem outranks_eq_false_iff (ha : a.isNaN = false) (hb : b.isNaN = false) :
    Scalar.outranks a b = false ↔ a ≤ b := by
  rw [← Bool.not_eq_true, outranks_eq_true_iff ha hb, not_lt_iff ha, hb]
  simp only [Bool.false_eq_true, false_or]

end Double

namespace Gauss

open Workbench (numeral)

variable {n : Nat} {M : Dense Float n (n + 1)} {i : Fin n}

/-- All coefficients in the rows and columns from `i` on are numbers. -/
def NumbersFrom (M : Dense Float n (n + 1)) (i : Fin n) : Prop :=
  ∀ r c : Fin n, i ≤ r → i ≤ c → M[r][c.castSucc].isNaN = false

instance (M : Dense Float n (n + 1)) (i : Fin n) : Decidable (NumbersFrom M i) :=
  inferInstanceAs (Decidable (∀ r c : Fin n, i ≤ r → i ≤ c → M[r][c.castSucc].isNaN = false))

/-- The place is the first one, row by row, of those in the rows and columns from `i` on that hold
    the largest magnitude; or, if some of them do not hold a number, the first one of these. -/
structure IsFirstLargest (M : Dense Float n (n + 1)) (i r c : Fin n) : Prop where
  row : i ≤ r
  column : i ≤ c
  of_numbers : NumbersFrom M i → ∀ r' c' : Fin n, i ≤ r' → i ≤ c' →
    M[r'][c'.castSucc].abs ≤ M[r][c.castSucc].abs ∧
      (toLex (r', c') < toLex (r, c) → M[r'][c'.castSucc].abs < M[r][c.castSucc].abs)
  of_not_numbers : ¬ NumbersFrom M i → M[r][c.castSucc].isNaN = true ∧
    ∀ r' c' : Fin n, i ≤ r' → i ≤ c' → toLex (r', c') < toLex (r, c) →
      M[r'][c'.castSucc].isNaN = false

/-- The place that complete pivoting chooses is the first largest one. -/
theorem isFirstLargest_largestFrom (M : Dense Float n (n + 1)) (i : Fin n) :
    IsFirstLargest M i (largestFrom M i).1 (largestFrom M i).2 := by
  have hlead := leads_largestFrom M i
  have hnan (p : Fin n × Fin n) : (magnitude M p).isNaN = M[p.1][p.2.castSucc].isNaN :=
    Double.isNaN_abs _
  refine ⟨hlead.mem.1, hlead.mem.2, ?_, ?_⟩
  · intro hnumbers r c hr hc
    have hplace : (magnitude M (r, c)).isNaN = false := by
      rw [hnan]
      exact hnumbers r c hr hc
    have hchosen : (magnitude M (largestFrom M i)).isNaN = false := by
      rw [hnan]
      exact hnumbers _ _ hlead.mem.1 hlead.mem.2
    refine ⟨?_, ?_⟩
    · exact (Double.outranks_eq_false_iff hplace hchosen).mp
        (hlead.not_outranked (r, c) ⟨hr, hc⟩)
    · intro hbefore
      exact (Double.outranks_eq_true_iff hchosen hplace).mp
        (hlead.outranks (r, c) ⟨hr, hc⟩ hbefore)
  · intro hnumbers
    refine ⟨?_, ?_⟩
    · simp only [NumbersFrom, not_forall, Bool.not_eq_false] at hnumbers
      obtain ⟨r, c, hr, hc, hbad⟩ := hnumbers
      -- What is not a number yields only to what is none either.
      rcases Scalar.outranks_eq_false_iff.mp (hlead.not_outranked (r, c) ⟨hr, hc⟩) with h | ⟨h, -⟩
      · rw [← hnan]
        exact h
      · have hplace := (hnan (r, c)).trans hbad
        exact absurd (hplace.symm.trans h) Bool.noConfusion
    · intro r c hr hc hbefore
      have hahead := hlead.outranks (r, c) ⟨hr, hc⟩ hbefore
      rw [← hnan (r, c)]
      exact (Scalar.outranks_eq_true_iff.mp hahead).1

/-- A diagonal entry that attains the maximum is chosen. -/
theorem largestFrom_eq_of_diagonal
    (h : ∀ r c : Fin n, i ≤ r → i ≤ c → M[r][c.castSucc].abs ≤ M[i][i.castSucc].abs) :
    largestFrom M i = (i, i) := by
  have hfirst := isFirstLargest_largestFrom M i
  have hnumbers : NumbersFrom M i := by
    intro r c hr hc
    rw [← Double.isNaN_abs]
    exact (Double.isNaN_of_le (h r c hr hc)).1
  by_contra hne
  have hbefore : toLex (i, i) < toLex (largestFrom M i) := by
    refine lt_of_le_of_ne (Prod.Lex.toLex_mono ⟨hfirst.row, hfirst.column⟩) ?_
    intro heq
    exact hne (toLex.injective heq).symm
  have hlarger := (hfirst.of_numbers hnumbers i i le_rfl le_rfl).2 hbefore
  exact Double.not_lt_of_le (h _ _ hfirst.row hfirst.column) hlarger

namespace Progress

/-- A step that chooses its diagonal entry exchanges nothing. -/
theorem arrange_complete_of_diagonal {P : Progress Float n}
    (h : largestFrom P.matrix i = (i, i)) : P.arrange .complete i = P := by
  have hcolumns : P.columns.swap i i i.isLt i.isLt = P.columns := by
    apply Vector.ext
    intro j hj
    rw [Vector.getElem_swap]
    split_ifs with hji
    · simp only [hji]
    · rfl
  rw [arrange_complete]
  simp only [h, Equiv.swap_self, Equiv.coe_refl, Dense.rearranged_id]
  simp [hcolumns]

/-- The pivot of a step is the largest magnitude that is left, if all that is left are numbers. -/
theorem isGreatest_abs_pivotAt {P : Progress Float n} (h : NumbersFrom P.matrix i) :
    IsGreatest {m | ∃ r c : Fin n, i ≤ r ∧ i ≤ c ∧ m = P.matrix[r][c.castSucc].abs}
      (P.pivotAt .complete i).abs := by
  have hfirst := isFirstLargest_largestFrom P.matrix i
  rw [P.pivotAt_complete]
  refine ⟨⟨_, _, hfirst.row, hfirst.column, rfl⟩, ?_⟩
  rintro m ⟨r, c, hr, hc, rfl⟩
  exact (hfirst.of_numbers h r c hr hc).1

end Progress

/-- In double precision, for every matrix, whether or not its entries are finite, and every step:
    the place that complete pivoting chooses is the first largest one among the coefficients that are
    left, and the search by hand finds the same place. So in every run, at every step that it comes
    to: if all that is left are numbers, the pivot is the maximum of their magnitudes, as it is
    recorded from then on; and if the diagonal entry attains the maximum, nothing is exchanged. -/
theorem complete_pivot_is_first_largest :
    (∀ (n : Nat) (M : Dense Float n (n + 1)) (i : Fin n),
      IsFirstLargest M i (largestFrom M i).1 (largestFrom M i).2 ∧
      ∀ W : Workbench, W.matrix = Tensor.ofDense M →
        W.findLargest (numeral i) =
          .ok (numeral (largestFrom M i).1, numeral (largestFrom M i).2)) ∧
    ∀ (n : Nat) (t : Float) (M : Dense Float n (n + 1)) (k : Nat) (hk : k < n)
      (P : Progress Float n), Progress.after .complete t M k hk.le = .ok P →
      (NumbersFrom P.matrix ⟨k, hk⟩ →
        IsGreatest {m | ∃ r c : Fin n, ⟨k, hk⟩ ≤ r ∧ ⟨k, hk⟩ ≤ c ∧
          m = P.matrix[r][c.castSucc].abs} (P.pivotAt .complete ⟨k, hk⟩).abs) ∧
      (∀ (l : Nat) (hl : l ≤ n) (R : Progress Float n), k < l →
        Progress.after .complete t M l hl = .ok R →
        R.pivots[k]? = some (P.pivotAt .complete ⟨k, hk⟩)) ∧
      ((∀ r c : Fin n, ⟨k, hk⟩ ≤ r → ⟨k, hk⟩ ≤ c →
          P.matrix[r][c.castSucc].abs ≤
            P.matrix[(⟨k, hk⟩ : Fin n)][(⟨k, hk⟩ : Fin n).castSucc].abs) →
        largestFrom P.matrix ⟨k, hk⟩ = (⟨k, hk⟩, ⟨k, hk⟩) ∧
          P.arrange .complete ⟨k, hk⟩ = P) := by
  refine ⟨?_, ?_⟩
  · intro n M i
    exact ⟨isFirstLargest_largestFrom M i, fun W hW => findLargest_numeral hW i⟩
  · intro n t M k hk P hP
    refine ⟨Progress.isGreatest_abs_pivotAt, ?_, ?_⟩
    · intro l hl R hkl hR
      exact Progress.getElem?_pivots_of_after hk hl hkl hP hR
    · intro hdiagonal
      have hchosen := largestFrom_eq_of_diagonal hdiagonal
      exact ⟨hchosen, Progress.arrange_complete_of_diagonal hchosen⟩

/-- The magnitude five stands in two places of the first system, of which the first one is chosen;
    in the second system a value that is not a number is chosen before an infinity. -/
theorem complete_pivot_is_first_largest_two_rows :
    (∃ R : Progress Float 2,
      eliminate .complete 1e-6 #v[#v[1, -5, 4], #v[5, 2, 7]] = .ok R ∧
        IsGreatest {m | ∃ r c : Fin 2, 0 ≤ r ∧ 0 ≤ c ∧
          m = ((#v[#v[1, -5, 4], #v[5, 2, 7]] : Dense Float 2 3)[r][c.castSucc]).abs}
          (5 : Float) ∧
        R.pivots[(0 : Nat)]? = some (-5 : Float)) ∧
    largestFrom (#v[#v[1 / 0, 0 / 0, 4], #v[0 / 0, 2, 7]] : Dense Float 2 3) 0 = (0, 1) ∧
      IsFirstLargest #v[#v[1 / 0, 0 / 0, 4], #v[0 / 0, 2, 7]] (0 : Fin 2) 0 1 := by
  refine ⟨?_, ?_⟩
  · have hend : (match eliminate .complete (1e-6 : Float) #v[#v[1, -5, 4], #v[5, 2, 7]] with
        | .ok _ => true
        | .error _ => false) = true := by
      decide +kernel
    split at hend
    · rename_i R hR
      have hstep := complete_pivot_is_first_largest.2 2 1e-6 #v[#v[1, -5, 4], #v[5, 2, 7]] 0
        Nat.two_pos (.start _) rfl
      have hpivot : (Progress.start (#v[#v[1, -5, 4], #v[5, 2, 7]] : Dense Float 2 3)).pivotAt
          .complete ⟨0, Nat.two_pos⟩ = -5 := by
        decide +kernel
      have hmagnitude : (-5 : Float).abs = 5 := by decide +kernel
      rw [hpivot, hmagnitude] at hstep
      exact ⟨R, hR, hstep.1 (by decide +kernel), hstep.2.1 2 (Nat.le_refl 2) R Nat.two_pos hR⟩
    · cases hend
  · have hchosen : largestFrom (#v[#v[1 / 0, 0 / 0, 4], #v[0 / 0, 2, 7]] : Dense Float 2 3) 0 =
        (0, 1) := by
      decide +kernel
    have hfirst := (complete_pivot_is_first_largest.1 2
      #v[#v[1 / 0, 0 / 0, 4], #v[0 / 0, 2, 7]] 0).1
    rw [hchosen] at hfirst
    exact ⟨hchosen, hfirst⟩

end Gauss

end LinearSystems
