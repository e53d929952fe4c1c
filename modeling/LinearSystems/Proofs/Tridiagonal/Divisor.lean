import LinearSystems.Proofs.Divisor
import LinearSystems.Proofs.Tridiagonal.Step
import LinearSystems.Tridiagonal.Solution

/-!
# Divisors of the sweep

The sweep divides by the divisors of its rows and by nothing else. As in elimination, a divisor that
is not a number passes the test; the coefficient of its row is then not a number, and so neither is
the divisor of the next row. The sweep ends with a last divisor that is not a number.
-/

namespace LinearSystems.Tridiagonal

variable {n : Nat} {B : Band Float n}

/-- What a sweep has to divide by: the divisor of every row that it comes to. -/
inductive Required (B : Band Float n) : Float → Prop
  | row {k : Nat} {hk : k < n} {S : Sweep Float n}
      (hS : B.sweepRows pivotThreshold k (Nat.le_of_lt hk) = .ok S) :
      Required B (B.divisor S ⟨k, hk⟩)

/-- What a sweep divides by: the divisor of every row that it sweeps. -/
inductive Used (B : Band Float n) : Float → Prop
  | row {k : Nat} {hk : k < n} {S R : Sweep Float n}
      (hS : B.sweepRows pivotThreshold k (Nat.le_of_lt hk) = .ok S)
      (hR : B.sweepRows pivotThreshold (k + 1) hk = .ok R) :
      Used B (B.divisor S ⟨k, hk⟩)

/-- A sweep is lost if it ends and the divisor of the last row is not a number. -/
def Lost (B : Band Float n) : Prop :=
  ∃ S, B.sweep pivotThreshold = .ok S ∧
    ∃ i : Fin n, i.val + 1 = n ∧ (B.divisor S i).isNaN = true

namespace Band

/-- After a row whose divisor is not a number the next divisor is not a number either. -/
theorem isNaN_divisor_swept {S : Sweep Float n} {i j : Fin n}
    (h : (B.divisor S i).isNaN = true) (hj : j.val = i.val + 1) :
    (B.divisor (B.swept S i) j).isNaN = true := by
  rw [B.divisor_of_eq_succ _ hj, B.getElem_alpha_swept S (hj ▸ j.isLt)]
  exact Double.isNaN_sub (.inr (Double.isNaN_mul (.inr (Double.isNaN_div (.inr h)))))

/-- A sweep that has met a divisor that is not a number comes to every later row, and meets such a
    divisor there. -/
theorem exists_isNaN_divisor {k : Nat} {hk : k < n} {S : Sweep Float n}
    (hS : B.sweepRows pivotThreshold k (Nat.le_of_lt hk) = .ok S)
    (h : (B.divisor S ⟨k, hk⟩).isNaN = true) {l : Nat} (hkl : k ≤ l) (hl : l < n) :
    ∃ R, B.sweepRows pivotThreshold l (Nat.le_of_lt hl) = .ok R ∧
      (B.divisor R ⟨l, hl⟩).isNaN = true := by
  induction l, hkl using Nat.le_induction with
  | base => exact ⟨S, hS, h⟩
  | succ l _ ih =>
    obtain ⟨R, hR, hnan⟩ := ih (Nat.lt_of_succ_lt hl)
    have haccepted := isBelow_pivotThreshold_eq_false_iff.mpr (.inl hnan)
    refine ⟨B.swept R ⟨l, Nat.lt_of_succ_lt hl⟩, ?_, ?_⟩
    · exact sweepRows_succ_eq_ok_iff.mpr ⟨R, hR, haccepted, rfl⟩
    · exact isNaN_divisor_swept hnan rfl

end Band

/-- A sweep that meets a divisor that is not a number is lost. -/
theorem lost_of_isNaN_divisor {k : Nat} {hk : k < n} {S : Sweep Float n}
    (hS : B.sweepRows pivotThreshold k (Nat.le_of_lt hk) = .ok S)
    (h : (B.divisor S ⟨k, hk⟩).isNaN = true) : Lost B := by
  obtain ⟨m, rfl⟩ : ∃ m, n = m + 1 := ⟨n - 1, by omega⟩
  obtain ⟨R, hR, hnan⟩ := Band.exists_isNaN_divisor hS h (Nat.le_of_lt_succ hk) (Nat.lt_succ_self m)
  have haccepted := isBelow_pivotThreshold_eq_false_iff.mpr (.inl hnan)
  refine ⟨B.swept R ⟨m, Nat.lt_succ_self m⟩, ?_, ⟨m, Nat.lt_succ_self m⟩, rfl, ?_⟩
  · exact Band.sweepRows_succ_eq_ok_iff.mpr ⟨R, hR, haccepted, rfl⟩
  · rw [B.divisor_swept_of_le R (Nat.le_refl _)]
    exact hnan

theorem Used.admissible_or_lost {v : Float} (h : Used B v) : Admissible v ∨ Lost B := by
  cases h with
  | row hS hR =>
    obtain ⟨S', hS', haccepted, -⟩ := Band.sweepRows_succ_eq_ok_iff.mp hR
    obtain rfl := Except.ok.inj (hS.symm.trans hS')
    rcases isBelow_pivotThreshold_eq_false_iff.mp haccepted with hnan | hgood
    · exact .inr (lost_of_isNaN_divisor hS hnan)
    · exact .inl hgood

/-- A sweep refuses the divisor that it has to divide by, or is ready to divide by it. -/
theorem Required.refuses_or_used (S : System) {v : Float} (h : Required S.band v) :
    Refuses S.run ∨ Used S.band v := by
  cases h with
  | @row k hk R hR =>
    cases htest : Scalar.isBelow pivotThreshold (S.band.divisor R ⟨k, hk⟩) with
    | true =>
      have hnext := Band.sweepRows_succ_eq_error_iff.mpr (.inr ⟨R, hR, htest, rfl⟩)
      have hrun := Band.sweepRows_eq_error_of_le hk (Nat.le_refl _) hk hnext
      refine .inl ⟨.smallDivisor (.sweep k) (S.band.divisor R ⟨k, hk⟩) pivotThreshold, ?_, .inl rfl⟩
      rw [System.run, Band.sweep, hrun]
    | false => exact .inr (.row hR (Band.sweepRows_succ_eq_ok_iff.mpr ⟨R, hR, htest, rfl⟩))

/-- A lost sweep has divided by its last divisor. -/
theorem Lost.exists_used (h : Lost B) : ∃ v, Used B v ∧ v.isNaN = true := by
  obtain ⟨S, hS, i, hi, hnan⟩ := h
  obtain ⟨m, rfl⟩ : ∃ m, n = m + 1 := ⟨i.val, hi.symm⟩
  obtain ⟨R, hR, -, rfl⟩ := Band.sweepRows_succ_eq_ok_iff.mp hS
  obtain rfl : i = ⟨m, Nat.lt_succ_self m⟩ := Fin.ext (Nat.succ.inj hi)
  rw [B.divisor_swept_of_le R (Nat.le_refl _)] at hnan
  exact ⟨_, .row hR hS, hnan⟩

/-- The sweep keeps the promise about divisors unless it is lost. -/
theorem System.guarded_iff (S : System) :
    Guarded (Required S.band) (Used S.band) S.run ↔ ¬ Lost S.band := by
  refine guarded_iff_not (fun v => Used.admissible_or_lost) ?_ Lost.exists_used
  intro v hv
  exact (hv.refuses_or_used S).imp_right Used.admissible_or_lost

/-- What the result of a sweep says of its being lost. -/
theorem lost_iff (S : System) :
    Lost S.band ↔
      ∃ r, S.run = .ok r ∧ ∃ i : Fin S.n, i.val + 1 = S.n ∧
        (S.band.divisor { alpha := r.params.alpha, beta := r.params.beta } i).isNaN = true := by
  rw [System.run]
  constructor
  · rintro ⟨R, hR, i, hi, hnan⟩
    rw [hR]
    exact ⟨_, rfl, i, hi, hnan⟩
  · rintro ⟨r, hr, i, hi, hnan⟩
    cases hsweep : S.band.sweep pivotThreshold with
    | error b =>
      rw [hsweep] at hr
      cases hr
    | ok R =>
      rw [hsweep] at hr
      cases hr
      exact ⟨R, hsweep, i, hi, hnan⟩

end LinearSystems.Tridiagonal
