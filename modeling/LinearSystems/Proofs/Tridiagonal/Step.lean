import LinearSystems.Proofs.Upwards
import LinearSystems.Tridiagonal.Sweep

/-!
# Steps of the sweep

What sweeping one row can do, said once: it either refuses the divisor of the row, or writes the
coefficients of the row. As in elimination, a sweep that stops does so at its first refused divisor.

A row reads the coefficients of the row before it and of no other, so the rows up to the one that
is swept keep their divisors and constants. No row reads the corners that belong to no unknown.
-/

namespace LinearSystems.Tridiagonal

universe u

variable {α : Type u} [Scalar α] {n : Nat} {t : α} {B : Band α n}

omit [Scalar α] in
theorem previous?_of_eq_zero {i : Fin n} (hi : i.val = 0) : previous? i = none :=
  if_pos hi

omit [Scalar α] in
theorem previous?_of_eq_succ {i j : Fin n} (hj : j.val = i.val + 1) : previous? j = some i := by
  have hne : j.val ≠ 0 := by omega
  have hval : j.val - 1 = i.val := by omega
  rw [previous?, if_neg hne]
  exact congrArg some (Fin.ext hval)

omit [Scalar α] in
theorem following?_of_eq_succ {i j : Fin n} (hj : j.val = i.val + 1) : following? i = some j := by
  have hlt : i.val + 1 < n := hj ▸ j.isLt
  rw [following?, dif_pos hlt]
  exact congrArg some (Fin.ext hj.symm)

omit [Scalar α] in
theorem following?_of_last {i : Fin n} (hi : n ≤ i.val + 1) : following? i = none :=
  dif_neg (Nat.not_lt.mpr hi)

/-- A row is the first one or comes right after another. -/
theorem eq_zero_or_eq_succ (j : Fin n) : j.val = 0 ∨ ∃ i : Fin n, j.val = i.val + 1 := by
  by_cases hj : j.val = 0
  · exact .inl hj
  · exact .inr ⟨⟨j.val - 1, by omega⟩, (Nat.succ_pred hj).symm⟩

namespace Band

theorem divisor_of_eq_zero (B : Band α n) (S : Sweep α n) {i : Fin n} (hi : i.val = 0) :
    B.divisor S i = B.diag[i] := by
  rw [divisor, previous?_of_eq_zero hi]

theorem divisor_of_eq_succ (B : Band α n) (S : Sweep α n) {i j : Fin n}
    (hj : j.val = i.val + 1) : B.divisor S j = B.diag[j] - B.lower[j] * S.alpha[i] := by
  rw [divisor, previous?_of_eq_succ hj]

theorem constant_of_eq_zero (B : Band α n) (S : Sweep α n) {i : Fin n} (hi : i.val = 0) :
    B.constant S i = B.rhs[i] := by
  rw [constant, previous?_of_eq_zero hi]

theorem constant_of_eq_succ (B : Band α n) (S : Sweep α n) {i j : Fin n}
    (hj : j.val = i.val + 1) : B.constant S j = B.rhs[j] - B.lower[j] * S.beta[i] := by
  rw [constant, previous?_of_eq_succ hj]

/-- The sweep once the coefficients of row `i` are written. -/
def swept (B : Band α n) (S : Sweep α n) (i : Fin n) : Sweep α n where
  alpha := if i.val + 1 < n then S.alpha.set i (B.upper[i] / B.divisor S i) i.isLt else S.alpha
  beta := S.beta.set i (B.constant S i / B.divisor S i) i.isLt

/-- A row with an unknown after it divides its upper entry. -/
theorem getElem_alpha_swept (B : Band α n) (S : Sweep α n) {i : Fin n} (hi : i.val + 1 < n) :
    (B.swept S i).alpha[i] = B.upper[i] / B.divisor S i := by
  simp [swept, hi]

theorem getElem_beta_swept (B : Band α n) (S : Sweep α n) (i : Fin n) :
    (B.swept S i).beta[i] = B.constant S i / B.divisor S i := by
  simp [swept]

theorem getElem_alpha_swept_of_ne (B : Band α n) (S : Sweep α n) {i j : Fin n} (hij : i ≠ j) :
    (B.swept S i).alpha[j] = S.alpha[j] := by
  have hne : i.val ≠ j.val := fun h => hij (Fin.ext h)
  by_cases hi : i.val + 1 < n
  · simp [swept, hi, hne]
  · simp [swept, hi]

theorem getElem_beta_swept_of_ne (B : Band α n) (S : Sweep α n) {i j : Fin n} (hij : i ≠ j) :
    (B.swept S i).beta[j] = S.beta[j] := by
  have hne : i.val ≠ j.val := fun h => hij (Fin.ext h)
  simp [swept, hne]

/-- The rows up to the swept one keep their divisors. -/
theorem divisor_swept_of_le (B : Band α n) (S : Sweep α n) {i j : Fin n} (hij : j ≤ i) :
    B.divisor (B.swept S i) j = B.divisor S j := by
  rcases eq_zero_or_eq_succ j with hj | ⟨p, hp⟩
  · rw [B.divisor_of_eq_zero _ hj, B.divisor_of_eq_zero _ hj]
  · have hne : i ≠ p := fun h => by omega
    rw [B.divisor_of_eq_succ _ hp, B.divisor_of_eq_succ _ hp, B.getElem_alpha_swept_of_ne S hne]

/-- The rows up to the swept one keep their constants. -/
theorem constant_swept_of_le (B : Band α n) (S : Sweep α n) {i j : Fin n} (hij : j ≤ i) :
    B.constant (B.swept S i) j = B.constant S j := by
  rcases eq_zero_or_eq_succ j with hj | ⟨p, hp⟩
  · rw [B.constant_of_eq_zero _ hj, B.constant_of_eq_zero _ hj]
  · have hne : i ≠ p := fun h => by omega
    rw [B.constant_of_eq_succ _ hp, B.constant_of_eq_succ _ hp, B.getElem_beta_swept_of_ne S hne]

/-- A row is swept or its divisor is refused, and which of the two depends on the divisor alone. -/
theorem sweepRow_eq (t : α) (B : Band α n) (S : Sweep α n) (i : Fin n) :
    B.sweepRow t S i =
      if Scalar.isBelow t (B.divisor S i) then .error { row := i, value := B.divisor S i }
      else .ok (B.swept S i) := rfl

theorem sweepRow_eq_ok_iff {S S' : Sweep α n} {i : Fin n} :
    B.sweepRow t S i = .ok S' ↔
      Scalar.isBelow t (B.divisor S i) = false ∧ S' = B.swept S i := by
  rw [sweepRow_eq]
  cases Scalar.isBelow t (B.divisor S i) with
  | true => simp
  | false => simp [eq_comm]

theorem sweepRow_eq_error_iff {S : Sweep α n} {i : Fin n} {b : Breakdown α n} :
    B.sweepRow t S i = .error b ↔
      Scalar.isBelow t (B.divisor S i) = true ∧ b = { row := i, value := B.divisor S i } := by
  rw [sweepRow_eq]
  cases Scalar.isBelow t (B.divisor S i) with
  | true => simp [eq_comm]
  | false => simp

theorem sweepRows_succ (t : α) (B : Band α n) (k : Nat) (h : k + 1 ≤ n) :
    B.sweepRows t (k + 1) h =
      (B.sweepRows t k (Nat.le_of_succ_le h)).bind fun S => B.sweepRow t S ⟨k, h⟩ := rfl

/-- A sweep of one more row is a sweep whose last divisor is accepted. -/
theorem sweepRows_succ_eq_ok_iff {k : Nat} {h : k + 1 ≤ n} {S' : Sweep α n} :
    B.sweepRows t (k + 1) h = .ok S' ↔
      ∃ S, B.sweepRows t k (Nat.le_of_succ_le h) = .ok S ∧
        Scalar.isBelow t (B.divisor S ⟨k, h⟩) = false ∧ S' = B.swept S ⟨k, h⟩ := by
  rw [sweepRows_succ]
  cases B.sweepRows t k (Nat.le_of_succ_le h) with
  | error b => simp [Except.bind]
  | ok S => simp [Except.bind, sweepRow_eq_ok_iff]

/-- A sweep of one more row stops where the shorter one did, or else at the new row. -/
theorem sweepRows_succ_eq_error_iff {k : Nat} {h : k + 1 ≤ n} {b : Breakdown α n} :
    B.sweepRows t (k + 1) h = .error b ↔
      B.sweepRows t k (Nat.le_of_succ_le h) = .error b ∨
      ∃ S, B.sweepRows t k (Nat.le_of_succ_le h) = .ok S ∧
        Scalar.isBelow t (B.divisor S ⟨k, h⟩) = true ∧
        b = { row := ⟨k, h⟩, value := B.divisor S ⟨k, h⟩ } := by
  rw [sweepRows_succ]
  cases B.sweepRows t k (Nat.le_of_succ_le h) with
  | error b' => simp [Except.bind]
  | ok S => simp [Except.bind, sweepRow_eq_error_iff]

/-- A sweep that has stopped is not taken up again. -/
theorem sweepRows_eq_error_of_le {k l : Nat} (hk : k ≤ n) (hl : l ≤ n) {b : Breakdown α n}
    (hkl : k ≤ l) (hb : B.sweepRows t k hk = .error b) : B.sweepRows t l hl = .error b := by
  induction hkl with
  | refl => exact hb
  | step _ ih => exact sweepRows_succ_eq_error_iff.mpr (.inl (ih (Nat.le_of_succ_le hl)))

/-- A sweep that stops does so at its first refused divisor. -/
theorem exists_refused_of_sweepRows_eq_error {k : Nat} {hk : k ≤ n} {b : Breakdown α n}
    (hb : B.sweepRows t k hk = .error b) :
    ∃ (j : Nat) (hj : j < n) (S : Sweep α n),
      B.sweepRows t j (Nat.le_of_lt hj) = .ok S ∧
        Scalar.isBelow t (B.divisor S ⟨j, hj⟩) = true ∧
        b = { row := ⟨j, hj⟩, value := B.divisor S ⟨j, hj⟩ } := by
  induction k with
  | zero => cases hb
  | succ k ih =>
    rcases sweepRows_succ_eq_error_iff.mp hb with hearlier | ⟨S, hS, hdivisor, rfl⟩
    · exact ih hearlier
    · exact ⟨k, hk, S, hS, hdivisor, rfl⟩

/-- If what holds before a row lets its divisor pass and holds again after it, no sweep stops. -/
theorem exists_sweepRows_of_invariant (I : Sweep α n → Prop)
    (hstart : I { alpha := Vector.replicate n 0, beta := Vector.replicate n 0 })
    (hstep : ∀ (S : Sweep α n) (i : Fin n), I S →
      Scalar.isBelow t (B.divisor S i) = false ∧ I (B.swept S i))
    (k : Nat) (hk : k ≤ n) : ∃ S, B.sweepRows t k hk = .ok S ∧ I S := by
  induction k with
  | zero => exact ⟨_, rfl, hstart⟩
  | succ k ih =>
    obtain ⟨S, hS, hI⟩ := ih (Nat.le_of_succ_le hk)
    obtain ⟨hdivisor, hnext⟩ := hstep S ⟨k, hk⟩ hI
    exact ⟨_, sweepRows_succ_eq_ok_iff.mpr ⟨S, hS, hdivisor, rfl⟩, hnext⟩

/-- Row `j` has been swept: its divisor was accepted, and its coefficients are quotients by it. The
    last row has no unknown after it, so nothing is said of its `alpha`. -/
structure Written (t : α) (B : Band α n) (S : Sweep α n) (j : Fin n) : Prop where
  accepted : Scalar.isBelow t (B.divisor S j) = false
  alpha : j.val + 1 < n → S.alpha[j] = B.upper[j] / B.divisor S j
  beta : S.beta[j] = B.constant S j / B.divisor S j

/-- Sweeping a later row leaves a swept row as it is. -/
theorem Written.swept {S : Sweep α n} {i j : Fin n} (h : B.Written t S j) (hij : j < i) :
    B.Written t (B.swept S i) j := by
  have hne : i ≠ j := Fin.ne_of_gt hij
  have hle : j ≤ i := Nat.le_of_lt hij
  refine ⟨?_, ?_, ?_⟩
  · rw [B.divisor_swept_of_le S hle]
    exact h.accepted
  · intro hj
    rw [B.getElem_alpha_swept_of_ne S hne, B.divisor_swept_of_le S hle]
    exact h.alpha hj
  · rw [B.getElem_beta_swept_of_ne S hne, B.divisor_swept_of_le S hle,
      B.constant_swept_of_le S hle]
    exact h.beta

theorem written_swept_self {S : Sweep α n} {i : Fin n}
    (h : Scalar.isBelow t (B.divisor S i) = false) : B.Written t (B.swept S i) i := by
  refine ⟨?_, ?_, ?_⟩
  · rw [B.divisor_swept_of_le S (Nat.le_refl _)]
    exact h
  · intro hi
    rw [B.getElem_alpha_swept S hi, B.divisor_swept_of_le S (Nat.le_refl _)]
  · rw [B.getElem_beta_swept, B.divisor_swept_of_le S (Nat.le_refl _),
      B.constant_swept_of_le S (Nat.le_refl _)]

/-- A sweep of `k` rows has swept each of them. -/
theorem written_of_sweepRows {k : Nat} {hk : k ≤ n} {S : Sweep α n}
    (hS : B.sweepRows t k hk = .ok S) {j : Fin n} (hj : j.val < k) : B.Written t S j := by
  induction k generalizing S with
  | zero => exact absurd hj (Nat.not_lt_zero _)
  | succ k ih =>
    obtain ⟨R, hR, hdivisor, rfl⟩ := sweepRows_succ_eq_ok_iff.mp hS
    rcases Nat.lt_or_eq_of_le (Nat.le_of_lt_succ hj) with hlt | rfl
    · have hij : j < ⟨k, hk⟩ := hlt
      exact (ih hR hlt).swept hij
    · exact written_swept_self hdivisor

/-- No row writes the `alpha` of the last row. -/
theorem getElem_alpha_of_last {k : Nat} {hk : k ≤ n} {S : Sweep α n}
    (hS : B.sweepRows t k hk = .ok S) {j : Fin n} (hj : n ≤ j.val + 1) : S.alpha[j] = 0 := by
  induction k generalizing S with
  | zero =>
    cases hS
    simp
  | succ k ih =>
    obtain ⟨R, hR, -, rfl⟩ := sweepRows_succ_eq_ok_iff.mp hS
    rw [← ih hR]
    by_cases hkj : (⟨k, hk⟩ : Fin n) = j
    · have hlast : ¬ k + 1 < n := by
        rw [← hkj] at hj
        exact Nat.not_lt.mpr hj
      simp only [swept, hlast, if_false]
    · exact B.getElem_alpha_swept_of_ne R hkj

omit [Scalar α] in
/-- Two systems that differ at most in the corners that belong to no unknown. -/
structure SameInside (B C : Band α n) : Prop where
  lower : ∀ i : Fin n, i.val ≠ 0 → B.lower[i] = C.lower[i]
  diag : B.diag = C.diag
  upper : ∀ i : Fin n, i.val + 1 < n → B.upper[i] = C.upper[i]
  rhs : B.rhs = C.rhs

namespace SameInside

variable {C : Band α n}

theorem divisor_eq (h : B.SameInside C) (S : Sweep α n) (i : Fin n) :
    B.divisor S i = C.divisor S i := by
  rcases eq_zero_or_eq_succ i with hi | ⟨p, hp⟩
  · rw [B.divisor_of_eq_zero S hi, C.divisor_of_eq_zero S hi, h.diag]
  · rw [B.divisor_of_eq_succ S hp, C.divisor_of_eq_succ S hp, h.diag, h.lower i (by omega)]

theorem constant_eq (h : B.SameInside C) (S : Sweep α n) (i : Fin n) :
    B.constant S i = C.constant S i := by
  rcases eq_zero_or_eq_succ i with hi | ⟨p, hp⟩
  · rw [B.constant_of_eq_zero S hi, C.constant_of_eq_zero S hi, h.rhs]
  · rw [B.constant_of_eq_succ S hp, C.constant_of_eq_succ S hp, h.rhs, h.lower i (by omega)]

theorem swept_eq (h : B.SameInside C) (S : Sweep α n) (i : Fin n) :
    B.swept S i = C.swept S i := by
  rw [swept, swept, h.divisor_eq, h.constant_eq]
  split_ifs with hi
  · rw [h.upper i hi]
  · rfl

theorem sweepRows_eq (h : B.SameInside C) (t : α) (k : Nat) (hk : k ≤ n) :
    B.sweepRows t k hk = C.sweepRows t k hk := by
  induction k with
  | zero => rfl
  | succ k ih =>
    have hrow (S : Sweep α n) : B.sweepRow t S ⟨k, hk⟩ = C.sweepRow t S ⟨k, hk⟩ := by
      rw [sweepRow_eq, sweepRow_eq, h.divisor_eq, h.swept_eq]
    rw [sweepRows_succ, sweepRows_succ, ih]
    exact congrArg (Except.bind _) (funext hrow)

/-- The sweep does not read those corners. -/
theorem sweep_eq (h : B.SameInside C) (t : α) : B.sweep t = C.sweep t :=
  h.sweepRows_eq t n (Nat.le_refl n)

end SameInside

end Band

/-- A row takes its unknown from the unknown after it. -/
theorem fromLater_solveRow (S : Sweep α n) : FromLater S.solveRow := by
  intro i x y h
  rcases Nat.lt_or_ge (i.val + 1) n with hi | hi
  · rw [Sweep.solveRow, Sweep.solveRow, following?_of_eq_succ (j := ⟨i.val + 1, hi⟩) rfl]
    exact congrArg (fun v => S.beta[i] - S.alpha[i] * v) (h ⟨i.val + 1, hi⟩ (Nat.lt_succ_self _))
  · rw [Sweep.solveRow, Sweep.solveRow, following?_of_last hi]

/-- The unknowns are what their rows ask for. -/
theorem getElem_backSubstitute (S : Sweep α n) (i : Fin n) :
    S.backSubstitute[i] = S.solveRow i S.backSubstitute :=
  (fromLater_solveRow S).eq_foldr_iff (Vector.replicate n 0) _ |>.mp rfl i

theorem getElem_backSubstitute_of_last (S : Sweep α n) {i : Fin n} (hi : n ≤ i.val + 1) :
    S.backSubstitute[i] = S.beta[i] := by
  rw [getElem_backSubstitute, Sweep.solveRow, following?_of_last hi]

theorem getElem_backSubstitute_of_eq_succ (S : Sweep α n) {i j : Fin n} (hj : j.val = i.val + 1) :
    S.backSubstitute[i] = S.beta[i] - S.alpha[i] * S.backSubstitute[j] := by
  rw [getElem_backSubstitute, Sweep.solveRow, following?_of_eq_succ hj]

end LinearSystems.Tridiagonal
