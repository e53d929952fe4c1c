import LinearSystems.Proofs.Gauss.Rearranged
import LinearSystems.Proofs.Gauss.Triangular

/-!
# What a run keeps of the rows that it has done with

A step works on the whole matrix: it exchanges whole rows and whole columns, and subtracts from all
rows below its own. Still it leaves alone what the steps before it have done with. The rows down to
its own and the columns before its own are not written to, and of the rows before its own complete
pivoting may only exchange entries in columns from its own on.

So the divisors of the back substitution are the values that were tested as pivots. This holds for
every scalar, also where entries overflow or are not numbers.
-/

namespace LinearSystems.Gauss

universe u

variable {α : Type u} {n : Nat} {mode : Pivoting}

/-- The first `k` rows of the second matrix are those of the first one. With complete pivoting their
    coefficients from column `k` on may stand in another order, which is the same one in all of
    them. -/
def KeepsRows (mode : Pivoting) (k : Nat) (M N : Dense α n (n + 1)) : Prop :=
  ∃ τ : Equiv.Perm (Fin n), FixesBelow τ k ∧ (mode = .diagonal → τ = 1) ∧
    ∀ i : Fin n, i.val < k →
      (∀ l : Fin n, N[i][l.castSucc] = M[i][(τ l).castSucc]) ∧ N[i][Fin.last n] = M[i][Fin.last n]

namespace KeepsRows

variable {k : Nat} {M N R : Dense α n (n + 1)}

theorem refl (M : Dense α n (n + 1)) : KeepsRows mode k M M :=
  ⟨1, fun _ _ => rfl, fun _ => rfl, fun _ _ => ⟨fun _ => rfl, rfl⟩⟩

theorem trans (h : KeepsRows mode k M N) (h' : KeepsRows mode k N R) : KeepsRows mode k M R := by
  obtain ⟨σ, hσ, hσmode, hN⟩ := h
  obtain ⟨τ, hτ, hτmode, hR⟩ := h'
  refine ⟨σ * τ, hσ.mul hτ, ?_, ?_⟩
  · intro hmode
    rw [hσmode hmode, hτmode hmode, one_mul]
  · intro i hi
    refine ⟨?_, (hR i hi).2.trans (hN i hi).2⟩
    intro l
    rw [(hR i hi).1, (hN i hi).1, Equiv.Perm.mul_apply]

variable [Scalar α]

/-- A step exchanges rows and columns from its own on. -/
theorem arrange (P : Progress α n) {i : Fin n} (hi : k ≤ i.val) :
    KeepsRows mode k P.matrix (P.arrange mode i).matrix := by
  cases mode with
  | diagonal => exact refl P.matrix
  | complete =>
    obtain ⟨hr, hc⟩ := le_largestFrom P.matrix i
    have hrows := FixesBelow.swap hi (Nat.le_trans hi hr)
    rw [Progress.arrange_complete]
    refine ⟨_, FixesBelow.swap hi (Nat.le_trans hi hc), nofun, ?_⟩
    intro j hj
    refine ⟨?_, ?_⟩
    · intro l
      rw [Dense.getElem_rearranged_castSucc, hrows j hj]
    · rw [Dense.getElem_rearranged_last, hrows j hj]

/-- It writes below its own row. -/
theorem eliminateBelow (M : Dense α n (n + 1)) {i : Fin n} (hi : k ≤ i.val + 1) :
    KeepsRows mode k M (eliminateBelow M i) := by
  refine ⟨1, fun _ _ => rfl, fun _ => rfl, ?_⟩
  intro j hj
  have hji : j ≤ i := Nat.le_of_lt_succ (Nat.lt_of_lt_of_le hj hi)
  exact ⟨fun l => getElem_eliminateBelow_of_le M hji _, getElem_eliminateBelow_of_le M hji _⟩

theorem accepted (P : Progress α n) {i : Fin n} (hi : k ≤ i.val) :
    KeepsRows mode k P.matrix (P.accepted mode i).matrix :=
  (arrange P hi).trans (eliminateBelow _ (Nat.le_succ_of_le hi))

end KeepsRows

variable [Scalar α] {t : α}

/-- What a step subtracts goes to the rows below its own, in the columns from its own on. -/
theorem getElem_eliminateBelow_of_not (M : Dense α n (n + 1)) {i j : Fin n} {l : Fin (n + 1)}
    (h : j ≤ i ∨ l < i.castSucc) : (eliminateBelow M i)[j][l] = M[j][l] := by
  rw [getElem_eliminateBelow, if_neg]
  rintro ⟨hj, hl⟩
  exact h.elim (Nat.not_le.mpr hj) (Nat.not_lt.mpr hl)

namespace Progress

/-- A longer run keeps the rows that a shorter one has done with. -/
theorem keepsRows_of_after {M : Dense α n (n + 1)} {k l : Nat} {hk : k ≤ n} {hl : l ≤ n}
    (hkl : k ≤ l) {P Q : Progress α n} (hP : after mode t M k hk = .ok P)
    (hQ : after mode t M l hl = .ok Q) : KeepsRows mode k P.matrix Q.matrix := by
  induction hkl generalizing Q with
  | refl =>
    obtain rfl := Except.ok.inj (hP.symm.trans hQ)
    exact .refl P.matrix
  | step hkl ih =>
    obtain ⟨R, hR, -, rfl⟩ := after_succ_eq_ok_iff.mp hQ
    exact (ih hR).trans (.accepted R hkl)

/-- All recorded pivots have passed their test. -/
theorem isBelow_eq_false_of_mem_pivots {M : Dense α n (n + 1)} {P : Progress α n}
    (hP : eliminate mode t M = .ok P) {v : α} (hv : v ∈ P.pivots) :
    Scalar.isBelow t v = false := by
  obtain ⟨i, hi⟩ := List.mem_iff_getElem?.mp hv
  have hin : i < n := by
    rw [← length_pivots_of_after hP]
    exact (List.getElem?_eq_some_iff.mp hi).1
  obtain ⟨Q, -, hpassed, -, hrecorded⟩ := exists_pivotAt_of_after hP (i := ⟨i, hin⟩) hin
  obtain rfl := Option.some.inj (hi.symm.trans hrecorded)
  exact hpassed

/-- The pivot recorded for a row is what its diagonal entry is in the end, and what back
    substitution divides by there. -/
theorem divided_by_pivot {M : Dense α n (n + 1)} {P : Progress α n}
    (hP : eliminate mode t M = .ok P) (i : Fin n) :
    ∃ v, P.pivots[i.val]? = some v ∧ P.matrix[i][i.castSucc] = v ∧
      (backSubstitute P.matrix)[i] =
        (P.matrix[i][Fin.last n] - tail P.matrix i (backSubstitute P.matrix)) / v := by
  obtain ⟨Q, -, -, hdiagonal, hrecorded⟩ := exists_pivotAt_of_after hP i.isLt
  refine ⟨_, hrecorded, hdiagonal, ?_⟩
  rw [← hdiagonal]
  exact (eq_backSubstitute_iff P.matrix _).mp rfl i

/-- A run that breaks down has accepted the pivots of the steps before, and shows the diagonal entry
    that its last exchanges have brought there. -/
theorem exists_after_of_eliminate_eq_error {M : Dense α n (n + 1)} {b : Breakdown α n}
    (hb : eliminate mode t M = .error b) :
    ∃ P, after mode t M b.step b.step.isLt.le = .ok P ∧ b.progress = P.arrange mode b.step ∧
      b.progress.pivots.length = b.step.val ∧
      b.pivot = b.progress.matrix[b.step][b.step.castSucc] ∧
      Scalar.isBelow t b.pivot = true := by
  obtain ⟨k, hk, P, hP, hrefused, rfl⟩ := exists_refused_of_after_eq_error hb
  refine ⟨P, hP, rfl, ?_, rfl, hrefused⟩
  show (P.arrange mode ⟨k, hk⟩).pivots.length = k
  rw [pivots_arrange, length_pivots_of_after hP]

end Progress

/-- For every matrix, with either way of pivoting. A run that finishes has recorded one pivot for
    each row, all of which have passed their test; each is the diagonal entry of its row in the end,
    and back substitution divides by it there. After its step a row is not changed again, also not
    by the exchanges of a step that refuses its pivot; only complete pivoting may exchange its
    coefficients in later columns. What a step subtracts changes neither the rows down to its own
    nor the columns before its own. A run that breaks down has accepted one pivot for each step
    before, and reports the diagonal entry that stands in its row after the exchanges. -/
theorem divisors_are_tested_pivots (mode : Pivoting) (t : α) (M : Dense α n (n + 1)) :
    (∀ P : Progress α n, eliminate mode t M = .ok P →
      P.pivots.length = n ∧ (∀ v ∈ P.pivots, Scalar.isBelow t v = false) ∧
      ∀ i : Fin n, ∃ v, P.pivots[i.val]? = some v ∧ P.matrix[i][i.castSucc] = v ∧
        (backSubstitute P.matrix)[i] =
          (P.matrix[i][Fin.last n] - tail P.matrix i (backSubstitute P.matrix)) / v) ∧
    (∀ (i : Fin n) (l : Nat) (hl : l ≤ n) (P Q : Progress α n), i.val < l →
      Progress.after mode t M (i.val + 1) i.isLt = .ok P → Progress.after mode t M l hl = .ok Q →
        KeepsRows mode (i.val + 1) P.matrix Q.matrix ∧
        ∀ j : Fin n, j.val = l → KeepsRows mode (i.val + 1) P.matrix (Q.arrange mode j).matrix) ∧
    (∀ (W : Dense α n (n + 1)) (i j : Fin n) (l : Fin (n + 1)), j ≤ i ∨ l < i.castSucc →
      (eliminateBelow W i)[j][l] = W[j][l]) ∧
    ∀ b : Breakdown α n, eliminate mode t M = .error b →
      ∃ P, Progress.after mode t M b.step b.step.isLt.le = .ok P ∧
        b.progress = P.arrange mode b.step ∧ b.progress.pivots.length = b.step.val ∧
        b.pivot = b.progress.matrix[b.step][b.step.castSucc] ∧
        Scalar.isBelow t b.pivot = true := by
  refine ⟨?_, ?_, ?_, ?_⟩
  · intro P hP
    exact ⟨Progress.length_pivots_of_after hP,
      fun v hv => Progress.isBelow_eq_false_of_mem_pivots hP hv,
      fun i => Progress.divided_by_pivot hP i⟩
  · intro i l hl P Q hil hP hQ
    have hkept := Progress.keepsRows_of_after hil hP hQ
    refine ⟨hkept, ?_⟩
    rintro j rfl
    exact hkept.trans (.arrange Q hil)
  · intro W i j l h
    exact getElem_eliminateBelow_of_not W h
  · intro b hb
    exact Progress.exists_after_of_eliminate_eq_error hb

/-- In the first system the second step exchanges the last two columns, also in the row of the first
    step. The second system is singular and given up at its last step. -/
theorem divisors_are_tested_pivots_three_rows :
    (∃ P Q : Progress Float 3,
      Progress.after .complete 1e-6 #v[#v[9, 1, 2, 5], #v[0, 1, 2, 6], #v[0, 1, 4, 7]] 1
        (by decide) = .ok P ∧
      eliminate .complete 1e-6 #v[#v[9, 1, 2, 5], #v[0, 1, 2, 6], #v[0, 1, 4, 7]] = .ok Q ∧
      Q.pivots.length = 3 ∧ Q.matrix[(0 : Fin 3)][(1 : Fin 4)] = 2 ∧
      KeepsRows .complete 1 P.matrix Q.matrix ∧
      (eliminateBelow Q.matrix 1)[(0 : Fin 3)][(2 : Fin 4)] = Q.matrix[(0 : Fin 3)][(2 : Fin 4)]) ∧
    ∃ b : Breakdown Float 2, eliminate .complete 1e-6 #v[#v[1, 2, 4], #v[2, 4, 11]] = .error b ∧
      b.step = 1 ∧ b.progress.pivots.length = 1 ∧
        b.pivot = b.progress.matrix[(1 : Fin 2)][(1 : Fin 3)] := by
  refine ⟨?_, ?_⟩
  · obtain ⟨hfinished, hkept, hbelow, -⟩ := divisors_are_tested_pivots .complete (1e-6 : Float)
      #v[#v[9, 1, 2, 5], #v[0, 1, 2, 6], #v[0, 1, 4, 7]]
    have hend : ((eliminate .complete (1e-6 : Float)
        #v[#v[9, 1, 2, 5], #v[0, 1, 2, 6], #v[0, 1, 4, 7]]).map fun Q =>
          Q.matrix[(0 : Fin 3)][(1 : Fin 4)]).mapError (fun _ => ()) = .ok 2 := by
      decide +kernel
    cases hQ : eliminate .complete (1e-6 : Float)
        #v[#v[9, 1, 2, 5], #v[0, 1, 2, 6], #v[0, 1, 4, 7]] with
    | error b =>
      rw [hQ] at hend
      cases hend
    | ok Q =>
      rw [hQ] at hend
      obtain ⟨P, hP, -⟩ := Progress.exists_pivotAt_of_after hQ (i := 1) (by decide)
      exact ⟨P, Q, hP, rfl, (hfinished Q hQ).1, Except.ok.inj hend,
        (hkept 0 3 (Nat.le_refl 3) P Q (by decide) hP hQ).1,
        hbelow Q.matrix 1 0 2 (.inl (by decide))⟩
  · have hend : ((eliminate .complete (1e-6 : Float)
        #v[#v[1, 2, 4], #v[2, 4, 11]]).map fun _ => ()).mapError (fun b => b.step) = .error 1 := by
      decide +kernel
    cases hb : eliminate .complete (1e-6 : Float) #v[#v[1, 2, 4], #v[2, 4, 11]] with
    | ok Q =>
      rw [hb] at hend
      cases hend
    | error b =>
      rw [hb] at hend
      have hstep : b.step = 1 := Except.error.inj hend
      have hgiven := divisors_are_tested_pivots .complete (1e-6 : Float)
        #v[#v[1, 2, 4], #v[2, 4, 11]]
      obtain ⟨P, -, -, hlength, hpivot, -⟩ := hgiven.2.2.2 b hb
      rw [hstep] at hlength hpivot
      exact ⟨b, rfl, hstep, hlength, hpivot⟩

end LinearSystems.Gauss
