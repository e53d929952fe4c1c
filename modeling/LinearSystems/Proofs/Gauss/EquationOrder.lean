import Mathlib
import LinearSystems.Proofs.Gauss.LargestPivot

/-!
# Complete pivoting does not look at the order of the equations

If the largest magnitude that is left is never held by two places, complete pivoting chooses the
same equation and the same unknown wherever the equation stands, and then eliminates with it in the
same way. So two runs on the same equations in different orders differ, from step to step, only in
the order of the equations that are still to be used, and in the end in nothing at all.

What carries the induction is the permutation that takes the rows of one run to those of the other.
Each run makes an exchange of its own, and after both the permutation leaves one row more alone.
-/

namespace LinearSystems.Gauss

universe u

variable {α : Type u} {n : Nat}

/-- To exchange rows in another order is to exchange them in the first order and then to go over to
    the other order, with the first exchange undone and the second one made. -/
theorem rearranged_swap_of_order (M : Dense α n (n + 1)) (ρ : Equiv.Perm (Fin n))
    (i r r' : Fin n) (τ : Fin n → Fin n) :
    (M.rearranged ρ id).rearranged (Equiv.swap i r') τ =
      (M.rearranged (Equiv.swap i r) τ).rearranged
        (Equiv.swap i r * ρ * Equiv.swap i r' : Equiv.Perm (Fin n)) id := by
  have hundone : Equiv.swap i r ∘ (Equiv.swap i r * ρ * Equiv.swap i r' : Equiv.Perm (Fin n)) =
      ρ ∘ Equiv.swap i r' := by
    funext j
    simp only [Function.comp_apply, Equiv.Perm.mul_apply, Equiv.swap_apply_self]
  rw [Dense.rearranged_rearranged, Dense.rearranged_rearranged, hundone]
  rfl

namespace Progress

/-- The second state is the first one with its rows from `k` on in another order. -/
structure Reordered (k : Nat) (ρ : Equiv.Perm (Fin n)) (P Q : Progress α n) : Prop where
  fixes : FixesBelow ρ k
  matrix : Q.matrix = P.matrix.rearranged ρ id
  columns : Q.columns = P.columns
  pivots : Q.pivots = P.pivots

namespace Reordered

variable {k : Nat} {ρ : Equiv.Perm (Fin n)} {P Q : Progress α n}

theorem start (M : Dense α n (n + 1)) (σ : Equiv.Perm (Fin n)) :
    Reordered 0 σ (start M) (start (M.rearranged σ id)) where
  fixes := fun _ hj => absurd hj (Nat.not_lt_zero _)
  matrix := rfl
  columns := rfl
  pivots := rfl

/-- If all rows are in their places the states are the same. -/
theorem eq (h : Reordered n ρ P Q) : Q = P := by
  obtain ⟨matrix, columns, pivots⟩ := Q
  obtain ⟨hfixes, rfl, rfl, rfl⟩ := h
  obtain rfl := hfixes.eq_one
  exact congrArg (fun M => Progress.mk M P.columns P.pivots) (Dense.rearranged_id P.matrix)

variable [Scalar α]

/-- Both runs choose the same coefficient, each where it stands in its own order. -/
def SameChoice (ρ : Equiv.Perm (Fin n)) (P Q : Progress α n) (i : Fin n) : Prop :=
  ρ (largestFrom Q.matrix i).1 = (largestFrom P.matrix i).1 ∧
    (largestFrom Q.matrix i).2 = (largestFrom P.matrix i).2

/-- At every step that the run comes to, the choice does not change if the rows that are left are
    put in another order. -/
def ChoosesAlike (t : α) (M : Dense α n (n + 1)) : Prop :=
  ∀ (k : Nat) (hk : k < n) (P Q : Progress α n) (ρ : Equiv.Perm (Fin n)),
    after .complete t M k hk.le = .ok P → Reordered k ρ P Q → SameChoice ρ P Q ⟨k, hk⟩

/-- The exchanges of both runs bring the same row to its place. -/
theorem arrange (h : Reordered k ρ P Q) {i : Fin n} (hi : i.val = k) (hsame : SameChoice ρ P Q i) :
    ∃ ρ', Reordered (k + 1) ρ' (P.arrange .complete i) (Q.arrange .complete i) := by
  obtain ⟨hrow, hcolumn⟩ := hsame
  have hr : k ≤ (largestFrom P.matrix i).1.val := by
    rw [← hi]
    exact (le_largestFrom P.matrix i).1
  have hr' : k ≤ (largestFrom Q.matrix i).1.val := by
    rw [← hi]
    exact (le_largestFrom Q.matrix i).1
  -- Undo the exchange of the second run, go over to the first run, and make its exchange.
  refine ⟨Equiv.swap i (largestFrom P.matrix i).1 * ρ * Equiv.swap i (largestFrom Q.matrix i).1,
    ?_, ?_, ?_, ?_⟩
  · refine ((FixesBelow.swap hi.ge hr).mul h.fixes).mul (FixesBelow.swap hi.ge hr') |>.succ hi ?_
    rw [Equiv.Perm.mul_apply, Equiv.Perm.mul_apply, Equiv.swap_apply_left, hrow,
      Equiv.swap_apply_right]
  · simp only [arrange_complete, hcolumn]
    rw [← rearranged_swap_of_order, ← h.matrix]
  · simp only [arrange_complete, hcolumn, h.columns]
  · simp only [arrange_complete, h.pivots]

/-- The row that has come to its place has the same pivot in it. -/
theorem pivotAt_eq {i : Fin n}
    (h : Reordered (i.val + 1) ρ (P.arrange .complete i) (Q.arrange .complete i)) :
    Q.pivotAt .complete i = P.pivotAt .complete i := by
  rw [pivotAt, h.matrix, Dense.getElem_rearranged_castSucc, h.fixes i (Nat.lt_succ_self _)]
  rfl

/-- The elimination of a row looks at that row and the pivot row only, so it keeps the order. -/
theorem accepted {i : Fin n}
    (h : Reordered (i.val + 1) ρ (P.arrange .complete i) (Q.arrange .complete i)) :
    Reordered (i.val + 1) ρ (P.accepted .complete i) (Q.accepted .complete i) where
  fixes := h.fixes
  matrix := by
    have hcolumns : FixesBelow (1 : Equiv.Perm (Fin n)) (i.val + 1) := fun _ _ => rfl
    have hkept := eliminateBelow_rearranged (P.arrange .complete i).matrix i h.fixes hcolumns
    rw [Equiv.Perm.coe_one, ← h.matrix] at hkept
    exact hkept
  columns := h.columns
  pivots := by
    have hpivots : Q.pivots = P.pivots := by
      have hkept := h.pivots
      rwa [arrange_complete, arrange_complete] at hkept
    rw [Progress.accepted, Progress.accepted, hpivots, h.pivotAt_eq]

/-- If both runs choose the same coefficient at every step, they differ at most in their order. -/
theorem exists_after {t : α} {M : Dense α n (n + 1)} (σ : Equiv.Perm (Fin n))
    (hsame : ChoosesAlike t M) {k : Nat} {hk : k ≤ n} {P : Progress α n}
    (hP : after .complete t M k hk = .ok P) :
    ∃ Q ρ, after .complete t (M.rearranged σ id) k hk = .ok Q ∧ Reordered k ρ P Q := by
  induction k generalizing P with
  | zero =>
    cases hP
    exact ⟨_, σ, rfl, start M σ⟩
  | succ k ih =>
    obtain ⟨P', hP', hpivot, rfl⟩ := after_succ_eq_ok_iff.mp hP
    obtain ⟨Q, ρ, hQ, hreordered⟩ := ih hP'
    have hchoice := hsame k hk P' Q ρ hP' hreordered
    obtain ⟨ρ', harranged⟩ := hreordered.arrange (i := ⟨k, hk⟩) rfl hchoice
    refine ⟨_, ρ', after_succ_eq_ok_iff.mpr ⟨Q, hQ, ?_, rfl⟩, accepted (i := ⟨k, hk⟩) harranged⟩
    rw [pivotAt_eq (i := ⟨k, hk⟩) harranged]
    exact hpivot

end Reordered

/-- If both runs choose the same coefficient at every step, they end in the same state, or break
    down at the same pivot of the same step. -/
theorem eliminate_reordered {t : α} [Scalar α] {M : Dense α n (n + 1)} (σ : Equiv.Perm (Fin n))
    (hsame : Reordered.ChoosesAlike t M) :
    (∃ P, eliminate .complete t M = .ok P ∧ eliminate .complete t (M.rearranged σ id) = .ok P) ∨
    ∃ b c, eliminate .complete t M = .error b ∧
      eliminate .complete t (M.rearranged σ id) = .error c ∧
        c.step = b.step ∧ c.pivot = b.pivot := by
  cases hend : eliminate .complete t M with
  | ok P =>
    obtain ⟨Q, ρ, hQ, hreordered⟩ := Reordered.exists_after σ hsame hend
    exact .inl ⟨P, rfl, hreordered.eq ▸ hQ⟩
  | error b =>
    obtain ⟨k, hk, P, hP, hpivot, rfl⟩ := exists_refused_of_after_eq_error hend
    obtain ⟨Q, ρ, hQ, hreordered⟩ := Reordered.exists_after σ hsame hP
    have hchoice := hsame k hk P Q ρ hP hreordered
    obtain ⟨ρ', harranged⟩ := hreordered.arrange (i := ⟨k, hk⟩) rfl hchoice
    have hrefused : Scalar.isBelow t (Q.pivotAt .complete ⟨k, hk⟩) = true := by
      rw [harranged.pivotAt_eq]
      exact hpivot
    have hnext := after_succ_eq_error_iff.mpr (.inr ⟨Q, hQ, hrefused, rfl⟩)
    refine .inr ⟨_, _, rfl, after_eq_error_of_le hk (Nat.le_refl n) hk hnext, rfl, ?_⟩
    exact harranged.pivotAt_eq

end Progress

/-- The largest magnitude in the rows and columns from `i` on stands in one place only. All that
    stands there is then a number. -/
def HasUniqueLargest (M : Dense Float n (n + 1)) (i : Fin n) : Prop :=
  ∃! p : Fin n × Fin n, (i ≤ p.1 ∧ i ≤ p.2) ∧ ∀ r c : Fin n, i ≤ r → i ≤ c →
    M[r][c.castSucc].abs ≤ M[p.1][p.2.castSucc].abs

instance (M : Dense Float n (n + 1)) (i : Fin n) : Decidable (HasUniqueLargest M i) :=
  inferInstanceAs (Decidable (∃ p : Fin n × Fin n, _ ∧ ∀ q : Fin n × Fin n, _ → q = p))

/-- No value that is not a number is comparable to the largest one. -/
theorem HasUniqueLargest.numbersFrom {M : Dense Float n (n + 1)} {i : Fin n}
    (h : HasUniqueLargest M i) : NumbersFrom M i := by
  obtain ⟨p, ⟨-, hlargest⟩, -⟩ := h
  intro r c hr hc
  rw [← Double.isNaN_abs]
  exact (Double.isNaN_of_le (hlargest r c hr hc)).1

/-- The only place with the largest magnitude is chosen wherever its row stands. -/
theorem Progress.Reordered.sameChoice {k : Nat} {ρ : Equiv.Perm (Fin n)} {P Q : Progress Float n}
    (h : Reordered k ρ P Q) {i : Fin n} (hi : i.val = k) (hunique : HasUniqueLargest P.matrix i) :
    SameChoice ρ P Q i := by
  subst hi
  have hentry (r c : Fin n) : Q.matrix[r][c.castSucc] = P.matrix[ρ r][c.castSucc] := by
    rw [h.matrix, Dense.getElem_rearranged_castSucc]
    rfl
  have hrow (r : Fin n) : i ≤ ρ r ↔ i ≤ r := h.fixes.le_apply_iff r
  have hnumbers := hunique.numbersFrom
  have hnumbers' : NumbersFrom Q.matrix i := by
    intro r c hr hc
    rw [hentry]
    exact hnumbers _ c ((hrow r).mpr hr) hc
  have hfirst := isFirstLargest_largestFrom P.matrix i
  have hfirst' := isFirstLargest_largestFrom Q.matrix i
  -- What the second run chooses is the largest of the first one's coefficients as well.
  have hlargest (r c : Fin n) (hr : i ≤ r) (hc : i ≤ c) :
      P.matrix[r][c.castSucc].abs ≤
        P.matrix[ρ (largestFrom Q.matrix i).1][(largestFrom Q.matrix i).2.castSucc].abs := by
    have hle := (hfirst'.of_numbers hnumbers' (ρ.symm r) c
      ((hrow _).mp (by rwa [Equiv.apply_symm_apply])) hc).1
    rwa [hentry, hentry, Equiv.apply_symm_apply] at hle
  have heq : (ρ (largestFrom Q.matrix i).1, (largestFrom Q.matrix i).2) = largestFrom P.matrix i :=
    hunique.unique ⟨⟨(hrow _).mpr hfirst'.row, hfirst'.column⟩, hlargest⟩
      ⟨⟨hfirst.row, hfirst.column⟩, fun r c hr hc => (hfirst.of_numbers hnumbers r c hr hc).1⟩
  exact Prod.ext_iff.mp heq

/-- At every step that the run comes to, the largest magnitude that is left stands in one place
    only. -/
def ChoosesWithoutTies (t : Float) (M : Dense Float n (n + 1)) : Prop :=
  ∀ (k : Fin n) (P : Progress Float n), Progress.after .complete t M k k.isLt.le = .ok P →
    HasUniqueLargest P.matrix k

instance (t : Float) (M : Dense Float n (n + 1)) : Decidable (ChoosesWithoutTies t M) :=
  decidable_of_iff
    (∀ k : Fin n, ∀ P ∈ (Progress.after .complete t M k k.isLt.le).toOption,
      HasUniqueLargest P.matrix k) <| by
    refine forall_congr' fun k => forall_congr' fun P => imp_congr_left ?_
    cases Progress.after .complete t M k k.isLt.le with
    | ok Q => simp [Except.toOption]
    | error b => simp [Except.toOption]

/-- In double precision complete pivoting does not depend on the order of the equations: if at every
    step that the run comes to the largest magnitude that is left stands in one place only, then for
    every order of the equations the run ends with the same values, the same pivots and the same
    columns, or breaks down at the same step with the same pivot. -/
theorem solve_complete_independent_of_order (t : Float) (M : Dense Float n (n + 1))
    (h : ChoosesWithoutTies t M) (σ : Equiv.Perm (Fin n)) :
    (∃ s, solve .complete t M = .ok s ∧ solve .complete t (M.rearranged σ id) = .ok s) ∨
    ∃ b c, solve .complete t M = .error b ∧ solve .complete t (M.rearranged σ id) = .error c ∧
      c.step = b.step ∧ c.pivot = b.pivot := by
  have hsame : Progress.Reordered.ChoosesAlike t M := by
    intro k hk P Q ρ hP hreordered
    exact hreordered.sameChoice rfl (h ⟨k, hk⟩ P hP)
  rcases Progress.eliminate_reordered σ hsame with ⟨P, hP, hQ⟩ | ⟨b, c, hb, hc, hend⟩
  · exact .inl ⟨_, solve_eq_ok_iff.mpr ⟨P, hP, rfl⟩, solve_eq_ok_iff.mpr ⟨P, hQ, rfl⟩⟩
  · exact .inr ⟨b, c, solve_eq_error_iff.mpr hb, solve_eq_error_iff.mpr hc, hend⟩

/-- A system that is solved and one that is given up at its last step, each in both orders. -/
theorem solve_complete_independent_of_order_two_rows :
    (∃ s : Solved Float 2, solve .complete 1e-6 #v[#v[1, -5, 4], #v[3, 2, 7]] = .ok s ∧
      solve .complete 1e-6
        (Dense.rearranged #v[#v[1, -5, 4], #v[3, 2, 7]] (Equiv.swap 0 1) id) = .ok s) ∧
    ∃ b c : Breakdown Float 2, solve .complete 1e-6 #v[#v[1, 2, 4], #v[2, 4, 11]] = .error b ∧
      solve .complete 1e-6
        (Dense.rearranged #v[#v[1, 2, 4], #v[2, 4, 11]] (Equiv.swap 0 1) id) = .error c ∧
      c.step = b.step ∧ c.pivot = b.pivot := by
  refine ⟨?_, ?_⟩
  · rcases solve_complete_independent_of_order 1e-6 #v[#v[1, -5, 4], #v[3, 2, 7]]
      (by decide +kernel) (Equiv.swap 0 1) with hsolved | ⟨b, c, hb, -⟩
    · exact hsolved
    · have hend : (solve .complete (1e-6 : Float) #v[#v[1, -5, 4], #v[3, 2, 7]]).toBool = true := by
        decide +kernel
      rw [hb] at hend
      cases hend
  · rcases solve_complete_independent_of_order 1e-6 #v[#v[1, 2, 4], #v[2, 4, 11]]
      (by decide +kernel) (Equiv.swap 0 1) with ⟨s, hs, -⟩ | hfailed
    · have hend : (solve .complete (1e-6 : Float) #v[#v[1, 2, 4], #v[2, 4, 11]]).toBool =
          false := by
        decide +kernel
      rw [hs] at hend
      cases hend
    · exact hfailed

end LinearSystems.Gauss
