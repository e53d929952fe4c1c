import LinearSystems.Proofs.Tensor.Entries
import LinearSystems.Proofs.Tridiagonal.Step
import LinearSystems.Tridiagonal.Kernel

/-!
# The sweep by itself on vectors

On four vectors of one length the sweep by itself does what the sweep of the system does. It appends
the coefficients of each row to those before it, so after every row it holds the first of the
coefficients that the sweep of the system has written.
-/

namespace LinearSystems.Tridiagonal

variable {n : Nat}

/-- The arrays of a system. -/
def Band.sides (B : Band Float n) : Sides where
  lower := .ofVector B.lower
  diag := .ofVector B.diag
  upper := .ofVector B.upper
  rhs := .ofVector B.rhs

/-- The coefficients of the first rows. -/
def Sweep.upTo (S : Sweep Float n) (k : Nat) : Swept where
  alpha := S.alpha.toArray.take k
  beta := S.beta.toArray.take k

theorem getD_take (v : Vector Float n) {j k : Nat} (hj : j < n) (hjk : j < k) :
    (v.toArray.take k).getD j 0.0 = v[j] := by
  simp [hj, hjk]

/-- A first part with the next entry appended is a longer first part. -/
theorem push_take (v : Vector Float n) (i : Fin n) (x : Float) :
    (v.toArray.take i).push x = (v.set i x i.isLt).toArray.take (i + 1) := by
  apply Array.ext
  · simp
  · intro j hj hj'
    have hji : j ≤ i.val := by simpa [Nat.lt_succ_iff] using hj
    rcases Nat.lt_or_eq_of_le hji with hlt | rfl
    · simp [Array.getElem_push, Array.getElem_set, hlt, hlt.ne']
    · simp [Array.getElem_push]

namespace Band

variable {B : Band Float n} {S : Sweep Float n}

/-- What is left of an entry is a number again. -/
theorem reduced_sides (B : Band Float n) (v w : Vector Float n) (i : Fin n) :
    B.sides.reduced (.ofVector v) i (w.toArray.take i) =
      .ok (.single (match previous? i with
        | none => v[i]
        | some p => v[i] - B.lower[i] * w[p])) := by
  obtain ⟨i, hi⟩ := i
  have hentry := Tensor.row_ofVector v ⟨i, hi⟩
  have hlower := Tensor.row_ofVector B.lower ⟨i, hi⟩
  cases i with
  | zero =>
    rw [Sides.reduced, hentry, previous?_of_eq_zero rfl]
    rfl
  | succ k =>
    rw [Sides.reduced, hentry, previous?_of_eq_succ (i := ⟨k, Nat.lt_of_succ_lt hi⟩) rfl]
    simp only [sides, hlower, bind, Except.bind]
    rw [getD_take w (Nat.lt_of_succ_lt hi) (Nat.lt_succ_self k)]
    rfl

/-- A row that is swept by itself stands after the rows before it. -/
theorem sweepRow_sides (i : Fin n) (hlast : n ≤ i.val + 1 → S.alpha[i] = 0) :
    B.sides.sweepRow n i (S.upTo i) =
      if Scalar.isBelow pivotThreshold (B.divisor S i) then
        .error (.smallDivisor (.sweep i) (B.divisor S i) pivotThreshold)
      else .ok ((B.swept S i).upTo (i + 1)) := by
  have hdivisor : B.sides.reduced B.sides.diag i (S.upTo i).alpha = .ok (.single (B.divisor S i)) :=
    B.reduced_sides B.diag S.alpha i
  have hconstant : B.sides.reduced B.sides.rhs i (S.upTo i).beta = .ok (.single (B.constant S i)) :=
    B.reduced_sides B.rhs S.beta i
  have hupper : B.sides.upper.row i = .ok (.single B.upper[i]) := Tensor.row_ofVector B.upper i
  rw [Sides.sweepRow, hdivisor]
  simp only [bind, Except.bind, Tensor.checkDivisor_single]
  cases Scalar.isBelow pivotThreshold (B.divisor S i) with
  | true => rfl
  | false =>
    have hbeta : (S.upTo i).beta.push (B.constant S i / B.divisor S i) =
        ((B.swept S i).upTo (i + 1)).beta := push_take S.beta i _
    simp only [hupper, hconstant, Tensor.zipWith_single, Tensor.stored_single, hbeta,
      Bool.false_eq_true, if_false]
    by_cases hi : i.val + 1 < n
    · have halpha : (S.upTo i).alpha.push (B.upper[i] / B.divisor S i) =
          ((B.swept S i).upTo (i + 1)).alpha := by
        rw [Sweep.upTo, push_take]
        simp only [swept, if_pos hi, Sweep.upTo]
      simp only [if_pos hi, halpha]
      rfl
    · -- The last row appends the zero that the sweep of the system still holds there.
      have halpha : (S.upTo i).alpha.push 0.0 = ((B.swept S i).upTo (i + 1)).alpha := by
        have hzero : S.alpha[i.val] = 0.0 := hlast (Nat.le_of_not_lt hi)
        have hkept : S.alpha.set i 0.0 = S.alpha := by
          rw [← hzero, Vector.set_getElem_self]
        rw [Sweep.upTo, push_take, hkept]
        simp only [swept, if_neg hi, Sweep.upTo]
      simp only [if_neg hi, pure, Except.pure, halpha]

/-- What comes of a sweep by itself. -/
def outcome : Except (Breakdown Float n) (Sweep Float n) → Except Fault Swept
  | .ok S => .ok { alpha := S.alpha.toArray, beta := S.beta.toArray }
  | .error b => .error (.smallDivisor (.sweep b.row) b.value pivotThreshold)

/-- From any row on that a sweep has come to, the sweep by itself goes on to the same end. -/
theorem sweepRows_sides {i count : Nat} (hi : i + count = n)
    (hS : B.sweepRows pivotThreshold i (by omega) = .ok S) :
    B.sides.sweepRows n i count (S.upTo i) = outcome (B.sweep pivotThreshold) := by
  -- The induction is on the rows that are still to be swept.
  induction count generalizing i S with
  | zero =>
    obtain rfl : i = n := hi
    have hend : B.sweep pivotThreshold = .ok S := hS
    rw [hend, Sides.sweepRows, Sweep.upTo]
    simp [outcome]
  | succ count ih =>
    have hlt : i < n := by omega
    have hrow := B.sweepRow_sides (S := S) ⟨i, hlt⟩ fun hlast => getElem_alpha_of_last hS hlast
    rw [Sides.sweepRows, hrow]
    cases hdivisor : Scalar.isBelow pivotThreshold (B.divisor S ⟨i, hlt⟩) with
    | true =>
      have hnext := sweepRows_succ_eq_error_iff.mpr (.inr ⟨S, hS, hdivisor, rfl⟩)
      have hend : B.sweep pivotThreshold = .error _ :=
        sweepRows_eq_error_of_le hlt (Nat.le_refl n) hlt hnext
      rw [hend]
      rfl
    | false =>
      exact ih (by omega) (sweepRows_succ_eq_ok_iff.mpr ⟨S, hS, hdivisor, rfl⟩)

/-- On vectors the sweep by itself ends as the sweep of the system does. -/
theorem sweep_sides (hn : 0 < n) (B : Band Float n) :
    B.sides.sweep = outcome (B.sweep pivotThreshold) := by
  obtain ⟨m, rfl⟩ : ∃ m, n = m + 1 := ⟨n - 1, by omega⟩
  exact sweepRows_sides (Nat.zero_add _) rfl

end Band

/-- The unknowns are found from the last to the first. -/
theorem solveRows_eq (S : Sweep Float n) {i : Nat} (hi : i < n) :
    solveRows (.ofVector S.alpha) (.ofVector S.beta) i S.backSubstitute[i]
      (S.backSubstitute.toList.drop (i + 1)) = .ok S.backSubstitute.toList := by
  have hlist (k : Nat) (hk : k < n) : S.backSubstitute[k] :: S.backSubstitute.toList.drop (k + 1) =
      S.backSubstitute.toList.drop k :=
    (List.drop_eq_getElem_cons (by simpa using hk)).symm
  induction i with
  | zero =>
    rw [solveRows, hlist 0 hi]
    rfl
  | succ k ih =>
    have hk : k < n := Nat.lt_of_succ_lt hi
    have hunknown := getElem_backSubstitute_of_eq_succ S (i := ⟨k, hk⟩) (j := ⟨k + 1, hi⟩) rfl
    have halpha := Tensor.row_ofVector S.alpha ⟨k, hk⟩
    have hbeta := Tensor.row_ofVector S.beta ⟨k, hk⟩
    rw [solveRows, hlist (k + 1) hi]
    simp only [halpha, hbeta, bind, Except.bind, Tensor.zipWith_single, Tensor.stored_single]
    rw [← ih hk]
    exact congrArg (fun x => solveRows _ _ k x _) hunknown.symm

/-- On swept rows the back substitution by itself finds the unknowns of the sweep. -/
theorem solveAll_eq (hn : 0 < n) (S : Sweep Float n) :
    solveAll (.ofVector S.alpha) (.ofVector S.beta) = .ok S.backSubstitute.toList := by
  obtain ⟨m, rfl⟩ : ∃ m, n = m + 1 := ⟨n - 1, by omega⟩
  have hm : m < m + 1 := Nat.lt_succ_self m
  have hbeta := Tensor.row_ofVector S.beta ⟨m, hm⟩
  have hlast := getElem_backSubstitute_of_last S (i := ⟨m, hm⟩) (Nat.le_refl _)
  have hall : solveAll (.ofVector S.alpha) (.ofVector S.beta) =
      ((Tensor.ofVector S.beta).row m).bind fun t => t.stored.bind fun x =>
        solveRows (.ofVector S.alpha) (.ofVector S.beta) m x [] := rfl
  have hnone : S.backSubstitute.toList.drop (m + 1) = [] := List.drop_eq_nil_of_le (by simp)
  rw [hall, hbeta]
  simp only [Except.bind, Tensor.stored_single]
  rw [← hlast, ← solveRows_eq S hm, hnone]
  rfl

end LinearSystems.Tridiagonal
