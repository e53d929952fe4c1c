import LinearSystems.Gauss.Solution
import LinearSystems.Proofs.Divisor
import LinearSystems.Proofs.Gauss.Step

/-!
# Divisors of the elimination

Elimination divides by the pivots of its steps, and back substitution by what then stands on the
diagonal, which is the same values again. A pivot that is not a number passes the test. From then
on there is no number left among the coefficients that are still to be eliminated, so no later pivot
is refused, and the run returns with a last pivot that is not a number.
-/

namespace LinearSystems.Gauss

variable {n : Nat} {mode : Pivoting} {M : Dense Float n (n + 1)}

/-- What a run has to divide by: the pivot of every step that it comes to, and in the end the
    diagonal of the matrix that it leaves. -/
inductive Required (mode : Pivoting) (M : Dense Float n (n + 1)) : Float → Prop
  | pivot {k : Nat} {hk : k < n} {P : Progress Float n}
      (hP : Progress.after mode pivotThreshold M k (Nat.le_of_lt hk) = .ok P) :
      Required mode M (P.pivotAt mode ⟨k, hk⟩)
  | diagonal {P : Progress Float n} (hP : eliminate mode pivotThreshold M = .ok P) (i : Fin n) :
      Required mode M P.matrix[i][i.castSucc]

/-- What a run divides by: the pivot of every step that it makes, and in the end the diagonal of the
    matrix that it leaves. -/
inductive Used (mode : Pivoting) (M : Dense Float n (n + 1)) : Float → Prop
  | pivot {k : Nat} {hk : k < n} {P Q : Progress Float n}
      (hP : Progress.after mode pivotThreshold M k (Nat.le_of_lt hk) = .ok P)
      (hQ : Progress.after mode pivotThreshold M (k + 1) hk = .ok Q) :
      Used mode M (P.pivotAt mode ⟨k, hk⟩)
  | diagonal {P : Progress Float n} (hP : eliminate mode pivotThreshold M = .ok P) (i : Fin n) :
      Used mode M P.matrix[i][i.castSucc]

/-- A run is lost if it ends and its last pivot is not a number. -/
def Lost (mode : Pivoting) (M : Dense Float n (n + 1)) : Prop :=
  ∃ P, eliminate mode pivotThreshold M = .ok P ∧
    ∃ v, P.pivots.getLast? = some v ∧ v.isNaN = true

namespace Progress

/-- After a pivot that is not a number there is no number left to be eliminated. -/
theorem isNaN_accepted {P : Progress Float n} {i : Fin n} (h : (P.pivotAt mode i).isNaN = true)
    {r c : Fin n} (hr : i < r) (hc : i < c) :
    ((P.accepted mode i).matrix[r][c.castSucc]).isNaN = true := by
  have hcolumn : i.castSucc ≤ c.castSucc := Nat.le_of_lt hc
  show ((eliminateBelow (P.arrange mode i).matrix i)[r][c.castSucc]).isNaN = true
  rw [getElem_eliminateBelow, if_pos ⟨hr, hcolumn⟩]
  exact Double.isNaN_sub (.inr (Double.isNaN_mul (.inl (Double.isNaN_div (.inr h)))))

/-- So the next pivot is not a number either. -/
theorem isNaN_pivotAt_accepted {P : Progress Float n} {i j : Fin n}
    (h : (P.pivotAt mode i).isNaN = true) (hij : i < j) :
    ((P.accepted mode i).pivotAt mode j).isNaN = true := by
  obtain ⟨r, c, hr, hc, heq⟩ := exists_pivotAt_eq mode (P.accepted mode i) j
  rw [heq]
  exact isNaN_accepted h (Nat.lt_of_lt_of_le hij hr) (Nat.lt_of_lt_of_le hij hc)

/-- A run that has met a pivot that is not a number comes to every later step, and meets such a
    pivot there. -/
theorem exists_isNaN_pivotAt {k : Nat} {hk : k < n} {P : Progress Float n}
    (hP : after mode pivotThreshold M k (Nat.le_of_lt hk) = .ok P)
    (h : (P.pivotAt mode ⟨k, hk⟩).isNaN = true) {l : Nat} (hkl : k ≤ l) (hl : l < n) :
    ∃ Q, after mode pivotThreshold M l (Nat.le_of_lt hl) = .ok Q ∧
      (Q.pivotAt mode ⟨l, hl⟩).isNaN = true := by
  induction l, hkl using Nat.le_induction with
  | base => exact ⟨P, hP, h⟩
  | succ l _ ih =>
    obtain ⟨Q, hQ, hnan⟩ := ih (Nat.lt_of_succ_lt hl)
    have haccepted := isBelow_pivotThreshold_eq_false_iff.mpr (.inl hnan)
    refine ⟨Q.accepted mode ⟨l, Nat.lt_of_succ_lt hl⟩, ?_, ?_⟩
    · exact after_succ_eq_ok_iff.mpr ⟨Q, hQ, haccepted, rfl⟩
    · exact isNaN_pivotAt_accepted hnan (Nat.lt_succ_self l)

end Progress

/-- A run that meets a pivot that is not a number is lost. -/
theorem lost_of_isNaN_pivotAt {k : Nat} {hk : k < n} {P : Progress Float n}
    (hP : Progress.after mode pivotThreshold M k (Nat.le_of_lt hk) = .ok P)
    (h : (P.pivotAt mode ⟨k, hk⟩).isNaN = true) : Lost mode M := by
  obtain ⟨m, rfl⟩ : ∃ m, n = m + 1 := ⟨n - 1, by omega⟩
  obtain ⟨Q, hQ, hnan⟩ :=
    Progress.exists_isNaN_pivotAt hP h (Nat.le_of_lt_succ hk) (Nat.lt_succ_self m)
  have haccepted := isBelow_pivotThreshold_eq_false_iff.mpr (.inl hnan)
  refine ⟨Q.accepted mode ⟨m, Nat.lt_succ_self m⟩, ?_, Q.pivotAt mode ⟨m, _⟩, ?_, hnan⟩
  · exact Progress.after_succ_eq_ok_iff.mpr ⟨Q, hQ, haccepted, rfl⟩
  · exact List.getLast?_concat

/-- An accepted pivot is admissible unless the run is lost. -/
theorem admissible_or_lost {k : Nat} {hk : k < n} {P : Progress Float n}
    (hP : Progress.after mode pivotThreshold M k (Nat.le_of_lt hk) = .ok P)
    (haccepted : Scalar.isBelow pivotThreshold (P.pivotAt mode ⟨k, hk⟩) = false) :
    Admissible (P.pivotAt mode ⟨k, hk⟩) ∨ Lost mode M := by
  rcases isBelow_pivotThreshold_eq_false_iff.mp haccepted with hnan | hgood
  · exact .inr (lost_of_isNaN_pivotAt hP hnan)
  · exact .inl hgood

theorem Used.admissible_or_lost {v : Float} (h : Used mode M v) : Admissible v ∨ Lost mode M := by
  cases h with
  | pivot hP hQ =>
    obtain ⟨P', hP', haccepted, -⟩ := Progress.after_succ_eq_ok_iff.mp hQ
    obtain rfl := Except.ok.inj (hP.symm.trans hP')
    exact Gauss.admissible_or_lost hP haccepted
  | diagonal hP i =>
    obtain ⟨Q, hQ, haccepted, hdiagonal, -⟩ := Progress.exists_pivotAt_of_after hP i.isLt
    rw [hdiagonal]
    exact Gauss.admissible_or_lost hQ haccepted

/-- A run refuses the pivot that it has to divide by, or is ready to divide by it. -/
theorem Required.refuses_or_used (E : Equations) {v : Float} (h : Required mode E.augmented v) :
    Refuses (E.run mode) ∨ Used mode E.augmented v := by
  cases h with
  | @pivot k hk P hP =>
    cases htest : Scalar.isBelow pivotThreshold (P.pivotAt mode ⟨k, hk⟩) with
    | true =>
      have hnext := Progress.after_succ_eq_error_iff.mpr (.inr ⟨P, hP, htest, rfl⟩)
      have hrun := Progress.after_eq_error_of_le hk (Nat.le_refl _) hk hnext
      refine .inl ⟨.smallDivisor (mode.smallDivisor k) (P.pivotAt mode ⟨k, hk⟩) pivotThreshold,
        ?_, .inl rfl⟩
      rw [Equations.run, solve_eq_error_iff.mpr hrun]
      rfl
    | false => exact .inr (.pivot hP (Progress.after_succ_eq_ok_iff.mpr ⟨P, hP, htest, rfl⟩))
  | diagonal hP i => exact .inr (.diagonal hP i)

/-- A lost run has divided by its last pivot. -/
theorem Lost.exists_used (hn : 0 < n) (h : Lost mode M) : ∃ v, Used mode M v ∧ v.isNaN = true := by
  obtain ⟨P, hP, v, hv, hnan⟩ := h
  -- There is a row, so the last pivot is that of a step.
  obtain ⟨m, rfl⟩ : ∃ m, n = m + 1 := ⟨n - 1, by omega⟩
  obtain ⟨Q, hQ, -, -, hrecorded⟩ :=
    Progress.exists_pivotAt_of_after hP (i := Fin.last m) (Nat.lt_succ_self m)
  have hlast : P.pivots.getLast? = some (Q.pivotAt mode (Fin.last m)) := by
    rw [List.getLast?_eq_getElem?, Progress.length_pivots_of_after hP]
    exact hrecorded
  obtain rfl := Option.some.inj (hlast.symm.trans hv)
  exact ⟨_, .pivot hQ hP, hnan⟩

/-- Elimination with either way of pivoting keeps the promise about divisors unless the run is
    lost. -/
theorem Equations.guarded_iff (E : Equations) (mode : Pivoting) :
    Guarded (Required mode E.augmented) (Used mode E.augmented) (E.run mode) ↔
      ¬ Lost mode E.augmented := by
  refine guarded_iff_not (fun v => Used.admissible_or_lost) ?_ (Lost.exists_used E.n_pos)
  intro v hv
  exact (hv.refuses_or_used E).imp_right Used.admissible_or_lost

/-- What the result of a run says of its being lost. -/
theorem lost_iff (E : Equations) (mode : Pivoting) :
    Lost mode E.augmented ↔
      ∃ r, E.run mode = .ok r ∧ ∃ v, r.params.pivots.getLast? = some v ∧ v.isNaN = true := by
  have hpivots (P : Progress Float E.n) : (P.solved mode).params.pivots = P.pivots := by
    cases mode <;> rfl
  rw [Equations.run]
  constructor
  · rintro ⟨P, hP, v, hv, hnan⟩
    rw [solve_eq_ok_iff.mpr ⟨P, hP, rfl⟩]
    refine ⟨_, rfl, v, ?_, hnan⟩
    show (P.solved mode).params.pivots.getLast? = some v
    rw [hpivots, hv]
  · rintro ⟨r, hr, v, hv, hnan⟩
    cases hsolve : solve mode pivotThreshold E.augmented with
    | error b =>
      rw [hsolve] at hr
      cases hr
    | ok s =>
      rw [hsolve] at hr
      obtain ⟨P, hP, rfl⟩ := solve_eq_ok_iff.mp hsolve
      cases hr
      refine ⟨P, hP, v, ?_, hnan⟩
      rw [← hpivots P]
      exact hv

end LinearSystems.Gauss
