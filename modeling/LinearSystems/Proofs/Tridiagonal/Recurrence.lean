import LinearSystems.Proofs.Largest
import LinearSystems.Proofs.Tridiagonal.Kernel

/-!
# The sweep as a recurrence

The sweep treats its first row and its last row apart: the first one has nothing to take off, the
last one has no unknown after it. Here the denominators and the constants are defined by recursion
on the rows alone, whether or not a sweep comes to them, and the sweep is shown to compute them: it
stops at the first denominator that is too small, and otherwise it writes the quotients of every
row. The two corners that belong to no unknown do not come into it.
-/

namespace LinearSystems.Tridiagonal

universe u

variable {α : Type u} [Scalar α] {n : Nat} {t : α}

namespace Band

/-- What row `i` divides by, as the rows before it determine it. -/
def denominator (B : Band α n) : (i : Nat) → i < n → α
  | 0, h => B.diag[0]
  | i + 1, h =>
    B.diag[i + 1] - B.lower[i + 1] * (B.upper[i] / B.denominator i (Nat.lt_of_succ_lt h))

/-- The constant of row `i` once the row is divided, as the rows before it determine it. -/
def quotient (B : Band α n) : (i : Nat) → i < n → α
  | 0, h => B.rhs[0] / B.diag[0]
  | i + 1, h =>
    (B.rhs[i + 1] - B.lower[i + 1] * B.quotient i (Nat.lt_of_succ_lt h)) / B.denominator (i + 1) h

variable {B : Band α n} {S : Sweep α n}

/-- After swept rows a row divides by its denominator. -/
theorem divisor_eq_denominator {i : Nat} (hi : i < n)
    (h : ∀ j : Fin n, j.val < i → B.Written t S j) : B.divisor S ⟨i, hi⟩ = B.denominator i hi := by
  induction i with
  | zero => exact B.divisor_of_eq_zero S rfl
  | succ i ih =>
    have hprevious : i < n := Nat.lt_of_succ_lt hi
    have hwritten := h ⟨i, hprevious⟩ (Nat.lt_succ_self i)
    rw [B.divisor_of_eq_succ S (i := ⟨i, hprevious⟩) rfl, hwritten.alpha hi,
      ih hprevious fun j hj => h j (Nat.lt_succ_of_lt hj)]
    rfl

/-- A swept row after swept rows has its constant. -/
theorem getElem_beta_eq_quotient {i : Nat} (hi : i < n)
    (h : ∀ j : Fin n, j.val ≤ i → B.Written t S j) : S.beta[i] = B.quotient i hi := by
  induction i with
  | zero =>
    have hbeta := (h ⟨0, hi⟩ le_rfl).beta
    rw [B.constant_of_eq_zero S rfl, B.divisor_of_eq_zero S rfl] at hbeta
    exact hbeta
  | succ i ih =>
    have hprevious : i < n := Nat.lt_of_succ_lt hi
    have hconstant : S.beta[(⟨i, hprevious⟩ : Fin n)] = B.quotient i hprevious :=
      ih hprevious fun j hj => h j (Nat.le_succ_of_le hj)
    have hbeta := (h ⟨i + 1, hi⟩ le_rfl).beta
    rw [B.constant_of_eq_succ S (i := ⟨i, hprevious⟩) rfl, hconstant,
      divisor_eq_denominator hi fun j hj => h j hj.le] at hbeta
    exact hbeta

/-- The first denominator that is too small, with its row. -/
structure IsFirstSmall (t : α) (B : Band α n) (b : Breakdown α n) : Prop where
  value : b.value = B.denominator b.row b.row.isLt
  small : Scalar.isBelow t b.value = true
  first : ∀ j : Fin n, j < b.row → Scalar.isBelow t (B.denominator j j.isLt) = false

/-- There is at most one. -/
theorem IsFirstSmall.eq {b c : Breakdown α n} (hb : B.IsFirstSmall t b) (hc : B.IsFirstSmall t c) :
    b = c := by
  have hle {b c : Breakdown α n} (hb : B.IsFirstSmall t b) (hc : B.IsFirstSmall t c) :
      b.row ≤ c.row := by
    by_contra hlt
    have hpassed := hb.first c.row (not_le.mp hlt)
    rw [← hc.value, hc.small] at hpassed
    cases hpassed
  have hrow := le_antisymm (hle hb hc) (hle hc hb)
  obtain ⟨row, value⟩ := b
  obtain ⟨row', value'⟩ := c
  obtain rfl : row = row' := hrow
  exact congrArg (Breakdown.mk row) (hb.value.trans hc.value.symm)

/-- The denominators of swept rows have passed the test. -/
theorem isBelow_denominator_of_sweepRows {k : Nat} {hk : k ≤ n}
    (hS : B.sweepRows t k hk = .ok S) {j : Fin n} (hj : j.val < k) :
    Scalar.isBelow t (B.denominator j j.isLt) = false := by
  rw [← divisor_eq_denominator j.isLt fun l hl => written_of_sweepRows hS (hl.trans hj)]
  exact (written_of_sweepRows hS hj).accepted

/-- A sweep stops exactly at the first denominator that is too small. -/
theorem sweep_eq_error_iff {b : Breakdown α n} :
    B.sweep t = .error b ↔ B.IsFirstSmall t b := by
  have hstopped {c : Breakdown α n} (hc : B.sweep t = .error c) : B.IsFirstSmall t c := by
    obtain ⟨k, hk, S, hS, hbelow, rfl⟩ := exists_refused_of_sweepRows_eq_error hc
    have hvalue := divisor_eq_denominator hk fun j hj => written_of_sweepRows hS hj
    exact ⟨hvalue, hbelow, fun j hj => isBelow_denominator_of_sweepRows hS hj⟩
  refine ⟨hstopped, ?_⟩
  intro hb
  cases hend : B.sweep t with
  | ok S =>
    have hpassed := isBelow_denominator_of_sweepRows hend b.row.isLt
    rw [← hb.value, hb.small] at hpassed
    cases hpassed
  | error c => exact congrArg Except.error ((hstopped hend).eq hb)

/-- So it stops exactly if some denominator is too small. -/
theorem exists_sweep_eq_error_iff :
    (∃ b, B.sweep t = .error b) ↔
      ∃ i : Fin n, Scalar.isBelow t (B.denominator i i.isLt) = true := by
  constructor
  · rintro ⟨b, hb⟩
    have hfirst := sweep_eq_error_iff.mp hb
    exact ⟨b.row, hfirst.value ▸ hfirst.small⟩
  · rintro ⟨i, hsmall⟩
    cases hend : B.sweep t with
    | ok S =>
      have hpassed := isBelow_denominator_of_sweepRows hend i.isLt
      rw [hsmall] at hpassed
      cases hpassed
    | error b => exact ⟨b, rfl⟩

/-- The swept rows have the coefficients of the recurrence, and no `alpha` after the last unknown.
    -/
structure Solves (B : Band α n) (S : Sweep α n) : Prop where
  alpha : ∀ i : Fin n, i.val + 1 < n → S.alpha[i] = B.upper[i] / B.denominator i i.isLt
  alpha_last : ∀ i : Fin n, i.val + 1 = n → S.alpha[i] = 0
  beta : ∀ i : Fin n, S.beta[i] = B.quotient i i.isLt

theorem solves_of_sweep (hS : B.sweep t = .ok S) : B.Solves S := by
  have hwritten (j : Fin n) : B.Written t S j := written_of_sweepRows hS j.isLt
  refine ⟨?_, ?_, ?_⟩
  · intro i hi
    rw [(hwritten i).alpha hi, ← divisor_eq_denominator i.isLt fun j _ => hwritten j]
  · intro i hi
    exact getElem_alpha_of_last hS hi.ge
  · intro i
    exact getElem_beta_eq_quotient i.isLt fun j _ => hwritten j

end Band

/-- In double precision, for every system of at least one row, whatever its entries are: the sweep
    stops exactly if some denominator of the recurrence is below the threshold in magnitude, and
    then it reports the first such row with its denominator; otherwise it has the coefficients of
    the recurrence, and the unknowns follow from the last to the first. The corners that belong to
    no unknown change nothing. The kernels by themselves give the same on the vectors of the system.
    -/
theorem sweep_is_recurrence (hn : 0 < n) (B : Band Float n) :
    ((∃ b, B.sweep pivotThreshold = .error b) ↔
      ∃ i : Fin n, (B.denominator i i.isLt).abs < pivotThreshold) ∧
    (∀ b, B.sweep pivotThreshold = .error b →
      b.value = B.denominator b.row b.row.isLt ∧ b.value.abs < pivotThreshold ∧
        ∀ j : Fin n, j < b.row → ¬ (B.denominator j j.isLt).abs < pivotThreshold) ∧
    (∀ S, B.sweep pivotThreshold = .ok S →
      (∀ i : Fin n, i.val + 1 < n → S.alpha[i] = B.upper[i] / B.denominator i i.isLt) ∧
      (∀ i : Fin n, i.val + 1 = n → S.alpha[i] = 0.0) ∧
      (∀ i : Fin n, S.beta[i] = B.quotient i i.isLt) ∧
      (∀ i : Fin n, i.val + 1 = n → S.backSubstitute[i] = S.beta[i]) ∧
      ∀ i j : Fin n, j.val = i.val + 1 →
        S.backSubstitute[i] = S.beta[i] - S.alpha[i] * S.backSubstitute[j]) ∧
    (∀ C : Band Float n, B.SameInside C → C.sweep pivotThreshold = B.sweep pivotThreshold) ∧
    B.sides.sweep = Band.outcome (B.sweep pivotThreshold) ∧
    ∀ S, B.sweep pivotThreshold = .ok S →
      solveAll (.ofVector S.alpha) (.ofVector S.beta) = .ok S.backSubstitute.toList := by
  have hsmall (v : Float) : Scalar.isBelow pivotThreshold v = true ↔ v.abs < pivotThreshold :=
    Double.less_eq_true_iff
  have hpassed (v : Float) : Scalar.isBelow pivotThreshold v = false ↔ ¬ v.abs < pivotThreshold :=
    Double.less_eq_false_iff
  refine ⟨?_, ?_, ?_, ?_, B.sweep_sides hn, fun S _ => solveAll_eq hn S⟩
  · simp only [← hsmall]
    exact Band.exists_sweep_eq_error_iff
  · intro b hb
    have hfirst := Band.sweep_eq_error_iff.mp hb
    exact ⟨hfirst.value, (hsmall _).mp hfirst.small, fun j hj => (hpassed _).mp (hfirst.first j hj)⟩
  · intro S hS
    have hsolves := Band.solves_of_sweep hS
    refine ⟨hsolves.alpha, hsolves.alpha_last, hsolves.beta, ?_, ?_⟩
    · intro i hi
      exact getElem_backSubstitute_of_last S hi.ge
    · intro i j hj
      exact getElem_backSubstitute_of_eq_succ S hj
  · intro C hC
    exact (hC.sweep_eq _).symm

/-- The first system is swept to the end, and with other corners as well; in the second one nothing
    is left to divide the second row by. -/
theorem sweep_is_recurrence_three_rows :
    (∃ S : Sweep Float 3,
      Band.sweep pivotThreshold ⟨#v[0, 1, 1], #v[4, 4, 4], #v[1, 1, 0], #v[5, 6, 5]⟩ = .ok S ∧
        Band.sweep pivotThreshold ⟨#v[7, 1, 1], #v[4, 4, 4], #v[1, 1, 8], #v[5, 6, 5]⟩ = .ok S ∧
        S.alpha[0] = 0.25 ∧ S.alpha[2] = 0.0 ∧ S.backSubstitute[2] = S.beta[2]) ∧
    ∃ b : Breakdown Float 3,
      Band.sweep pivotThreshold ⟨#v[0, 1, 1], #v[1, 1, 1], #v[1, 1, 0], #v[1, 1, 1]⟩ = .error b ∧
        b.row = 1 ∧ b.value = 0.0 := by
  refine ⟨?_, ?_⟩
  · obtain ⟨-, -, hsolved, hcorners, -⟩ := sweep_is_recurrence (Nat.succ_pos 2)
      (⟨#v[0, 1, 1], #v[4, 4, 4], #v[1, 1, 0], #v[5, 6, 5]⟩ : Band Float 3)
    have hend : (match Band.sweep pivotThreshold
          (⟨#v[0, 1, 1], #v[4, 4, 4], #v[1, 1, 0], #v[5, 6, 5]⟩ : Band Float 3) with
        | .ok _ => true
        | .error _ => false) = true := by
      decide +kernel
    split at hend
    · rename_i S hS
      obtain ⟨halpha, hlast, -, hunknown, -⟩ := hsolved S hS
      refine ⟨S, hS, ?_, ?_, hlast 2 rfl, hunknown 2 rfl⟩
      · rw [← hS]
        exact hcorners _ ⟨by decide +kernel, rfl, by decide +kernel, rfl⟩
      · exact (halpha 0 (by decide)).trans (by decide +kernel)
    · cases hend
  · have hreport := (sweep_is_recurrence (Nat.succ_pos 2)
      (⟨#v[0, 1, 1], #v[1, 1, 1], #v[1, 1, 0], #v[1, 1, 1]⟩ : Band Float 3)).2.1
    have hend : (match Band.sweep pivotThreshold
          (⟨#v[0, 1, 1], #v[1, 1, 1], #v[1, 1, 0], #v[1, 1, 1]⟩ : Band Float 3) with
        | .ok _ => false
        | .error b => b.row == 1) = true := by
      decide +kernel
    split at hend
    · cases hend
    · rename_i b hb
      have hrow : b.row = 1 := eq_of_beq hend
      have hdenominator :
          (⟨#v[0, 1, 1], #v[1, 1, 1], #v[1, 1, 0], #v[1, 1, 1]⟩ : Band Float 3).denominator
            (1 : Fin 3) (1 : Fin 3).isLt = 0.0 := by
        decide +kernel
      refine ⟨b, hb, hrow, ?_⟩
      rw [(hreport b hb).1]
      simp only [hrow]
      exact hdenominator

end LinearSystems.Tridiagonal
