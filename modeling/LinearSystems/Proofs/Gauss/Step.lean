import LinearSystems.Gauss.Substitution

/-!
# Steps of the elimination

What one step of a run can do, said once: it either refuses the pivot that it arranged, or accepts
the pivot and eliminates below it. From this follow the runs of every length: what holds at the
start and is kept by every accepted step holds after every run, and a run that stops does so at its
first refused pivot.

The places that a step looks at lie in the rows and columns from its own on, so an accepted pivot
stays on the diagonal until the end.
-/

namespace LinearSystems.Gauss

universe u v

variable {α : Type u} [Scalar α] {n : Nat} {mode : Pivoting} {t : α}

namespace Progress

/-- The pivot that step `i` tests: the diagonal entry once the step has arranged the matrix. -/
def pivotAt (mode : Pivoting) (P : Progress α n) (i : Fin n) : α :=
  (P.arrange mode i).matrix[i][i.castSucc]

/-- The state after step `i` if its pivot is accepted. -/
def accepted (mode : Pivoting) (P : Progress α n) (i : Fin n) : Progress α n where
  matrix := eliminateBelow (P.arrange mode i).matrix i
  columns := (P.arrange mode i).columns
  pivots := P.pivots ++ [P.pivotAt mode i]

/-- How step `i` breaks down if its pivot is refused. -/
def refused (mode : Pivoting) (P : Progress α n) (i : Fin n) : Breakdown α n where
  step := i
  pivot := P.pivotAt mode i
  progress := P.arrange mode i

@[simp] theorem arrange_diagonal (P : Progress α n) (i : Fin n) : P.arrange .diagonal i = P := rfl

/-- The exchanges of a step are no new pivot. -/
theorem pivots_arrange (mode : Pivoting) (P : Progress α n) (i : Fin n) :
    (P.arrange mode i).pivots = P.pivots := by
  cases mode <;> rfl

theorem length_pivots_accepted (mode : Pivoting) (P : Progress α n) (i : Fin n) :
    (P.accepted mode i).pivots.length = P.pivots.length + 1 :=
  List.length_append

/-- The pivots before an accepted one stay in their places. -/
theorem getElem?_pivots_accepted_of_lt (mode : Pivoting) (P : Progress α n) (i : Fin n) {j : Nat}
    (hj : j < P.pivots.length) : (P.accepted mode i).pivots[j]? = P.pivots[j]? :=
  List.getElem?_append_left hj

/-- An accepted pivot is recorded after those before it. -/
theorem getElem?_pivots_accepted (mode : Pivoting) (P : Progress α n) (i : Fin n) :
    (P.accepted mode i).pivots[P.pivots.length]? = some (P.pivotAt mode i) :=
  List.getElem?_concat_length

/-- A step accepts its pivot or refuses it, and which of the two depends on the pivot alone. -/
theorem advance_eq (mode : Pivoting) (t : α) (P : Progress α n) (i : Fin n) :
    P.advance mode t i =
      if Scalar.isBelow t (P.pivotAt mode i) then .error (P.refused mode i)
      else .ok (P.accepted mode i) := by
  cases mode <;> rfl

theorem advance_eq_ok_iff {P Q : Progress α n} {i : Fin n} :
    P.advance mode t i = .ok Q ↔
      Scalar.isBelow t (P.pivotAt mode i) = false ∧ Q = P.accepted mode i := by
  rw [advance_eq]
  cases Scalar.isBelow t (P.pivotAt mode i) with
  | true => simp
  | false => simp [eq_comm]

theorem advance_eq_error_iff {P : Progress α n} {i : Fin n} {b : Breakdown α n} :
    P.advance mode t i = .error b ↔
      Scalar.isBelow t (P.pivotAt mode i) = true ∧ b = P.refused mode i := by
  rw [advance_eq]
  cases Scalar.isBelow t (P.pivotAt mode i) with
  | true => simp [eq_comm]
  | false => simp

theorem after_succ (M : Dense α n (n + 1)) (k : Nat) (h : k + 1 ≤ n) :
    after mode t M (k + 1) h =
      (after mode t M k (Nat.le_of_succ_le h)).bind fun P => P.advance mode t ⟨k, h⟩ := rfl

/-- A run of one more step is a run whose last pivot is accepted. -/
theorem after_succ_eq_ok_iff {M : Dense α n (n + 1)} {k : Nat} {h : k + 1 ≤ n}
    {Q : Progress α n} :
    after mode t M (k + 1) h = .ok Q ↔
      ∃ P, after mode t M k (Nat.le_of_succ_le h) = .ok P ∧
        Scalar.isBelow t (P.pivotAt mode ⟨k, h⟩) = false ∧ Q = P.accepted mode ⟨k, h⟩ := by
  rw [after_succ]
  cases after mode t M k (Nat.le_of_succ_le h) with
  | error b => simp [Except.bind]
  | ok P => simp [Except.bind, advance_eq_ok_iff]

/-- A run of one more step breaks down where the shorter one did, or else at the new step. -/
theorem after_succ_eq_error_iff {M : Dense α n (n + 1)} {k : Nat} {h : k + 1 ≤ n}
    {b : Breakdown α n} :
    after mode t M (k + 1) h = .error b ↔
      after mode t M k (Nat.le_of_succ_le h) = .error b ∨
      ∃ P, after mode t M k (Nat.le_of_succ_le h) = .ok P ∧
        Scalar.isBelow t (P.pivotAt mode ⟨k, h⟩) = true ∧ b = P.refused mode ⟨k, h⟩ := by
  rw [after_succ]
  cases after mode t M k (Nat.le_of_succ_le h) with
  | error b' => simp [Except.bind]
  | ok P => simp [Except.bind, advance_eq_error_iff]

/-- What holds at the start and is kept by every accepted step holds after every run. -/
theorem after_invariant {M : Dense α n (n + 1)} (I : Nat → Progress α n → Prop)
    (hstart : I 0 (start M))
    (hstep : ∀ (k : Nat) (h : k < n) (P : Progress α n), I k P →
      Scalar.isBelow t (P.pivotAt mode ⟨k, h⟩) = false → I (k + 1) (P.accepted mode ⟨k, h⟩))
    {k : Nat} {hk : k ≤ n} {P : Progress α n} (hP : after mode t M k hk = .ok P) : I k P := by
  induction k generalizing P with
  | zero =>
    cases hP
    exact hstart
  | succ k ih =>
    obtain ⟨Q, hQ, hpivot, rfl⟩ := after_succ_eq_ok_iff.mp hP
    exact hstep k hk Q (ih hQ) hpivot

/-- If what holds before a step lets its pivot pass and holds again after it, no run stops. -/
theorem exists_after_of_invariant {M : Dense α n (n + 1)} (I : Nat → Progress α n → Prop)
    (hstart : I 0 (start M))
    (hstep : ∀ (k : Nat) (h : k < n) (P : Progress α n), I k P →
      Scalar.isBelow t (P.pivotAt mode ⟨k, h⟩) = false ∧ I (k + 1) (P.accepted mode ⟨k, h⟩))
    (k : Nat) (hk : k ≤ n) : ∃ P, after mode t M k hk = .ok P ∧ I k P := by
  induction k with
  | zero => exact ⟨_, rfl, hstart⟩
  | succ k ih =>
    obtain ⟨P, hP, hI⟩ := ih (Nat.le_of_succ_le hk)
    obtain ⟨hpivot, hnext⟩ := hstep k hk P hI
    exact ⟨_, after_succ_eq_ok_iff.mpr ⟨P, hP, hpivot, rfl⟩, hnext⟩

/-- A run that breaks down does so at its first refused pivot. -/
theorem exists_refused_of_after_eq_error {M : Dense α n (n + 1)} {k : Nat} {hk : k ≤ n}
    {b : Breakdown α n} (hb : after mode t M k hk = .error b) :
    ∃ (j : Nat) (hj : j < k) (P : Progress α n),
      after mode t M j (by omega) = .ok P ∧
        Scalar.isBelow t (P.pivotAt mode ⟨j, by omega⟩) = true ∧
        b = P.refused mode ⟨j, by omega⟩ := by
  induction k with
  | zero => cases hb
  | succ k ih =>
    rcases after_succ_eq_error_iff.mp hb with hearlier | ⟨P, hP, hpivot, rfl⟩
    · obtain ⟨j, hj, P, hP⟩ := ih hearlier
      exact ⟨j, by omega, P, hP⟩
    · exact ⟨k, by omega, P, hP, hpivot, rfl⟩

/-- A run that has broken down is not taken up again. -/
theorem after_eq_error_of_le {M : Dense α n (n + 1)} {k l : Nat} (hk : k ≤ n) (hl : l ≤ n)
    {b : Breakdown α n} (hkl : k ≤ l) (hb : after mode t M k hk = .error b) :
    after mode t M l hl = .error b := by
  induction hkl with
  | refl => exact hb
  | step _ ih => exact after_succ_eq_error_iff.mpr (.inl (ih (Nat.le_of_succ_le hl)))

end Progress

theorem solve_eq_ok_iff {M : Dense α n (n + 1)} {s : Solved α n} :
    solve mode t M = .ok s ↔ ∃ P, eliminate mode t M = .ok P ∧ s = P.solved mode := by
  rw [solve]
  cases eliminate mode t M with
  | error b => simp [Except.map]
  | ok P => simp [Except.map, eq_comm]

theorem solve_eq_error_iff {M : Dense α n (n + 1)} {b : Breakdown α n} :
    solve mode t M = .error b ↔ eliminate mode t M = .error b := by
  rw [solve]
  cases eliminate mode t M with
  | error b' => simp [Except.map]
  | ok P => simp [Except.map]

/-- A search goes on from the place that it chooses of the first two, as if it had started there. -/
theorem firstLargest_cons {β : Type v} (value : β → α) (p q : β) (qs : List β) :
    firstLargest value p (q :: qs) =
      firstLargest value (if Scalar.outranks (value q) (value p) then q else p) qs := rfl

/-- A search by magnitude ends at its start or at one of the places that it looks at. -/
theorem firstLargest_mem {β : Type v} (value : β → α) (p : β) (ps : List β) :
    firstLargest value p ps = p ∨ firstLargest value p ps ∈ ps := by
  induction ps generalizing p with
  | nil => exact .inl rfl
  | cons q qs ih =>
    rw [firstLargest_cons]
    split
    · rcases ih q with h | h
      · rw [h]
        exact .inr List.mem_cons_self
      · exact .inr (List.mem_cons_of_mem _ h)
    · rcases ih p with h | h
      · exact .inl h
      · exact .inr (List.mem_cons_of_mem _ h)

theorem mem_block {row column : Nat} {p : Fin n × Fin n} :
    p ∈ block n row column ↔ row ≤ p.1.val ∧ column ≤ p.2.val := by
  obtain ⟨r, c⟩ := p
  simp only [block, List.mem_flatMap, List.mem_finRange, true_and]
  constructor
  · rintro ⟨r', hmem⟩
    split at hmem
    · rename_i hr
      obtain ⟨c', hc, heq⟩ := List.mem_map.mp hmem
      cases heq
      exact ⟨hr, by simpa using (List.mem_filter.mp hc).2⟩
    · simp at hmem
  · rintro ⟨hr, hc⟩
    refine ⟨r, ?_⟩
    rw [if_pos hr]
    exact List.mem_map.mpr ⟨c, List.mem_filter.mpr ⟨List.mem_finRange c, by simpa using hc⟩, rfl⟩

/-- The place that complete pivoting chooses at step `i` lies in the rows and columns from `i`
    on, whatever the entries are. -/
theorem le_largestFrom (M : Dense α n (n + 1)) (i : Fin n) :
    i ≤ (largestFrom M i).1 ∧ i ≤ (largestFrom M i).2 := by
  rcases firstLargest_mem (magnitude M) (i, i) (block n i.val i.val) with h | h
  · rw [largestFrom, h]
    exact ⟨Nat.le_refl _, Nat.le_refl _⟩
  · exact mem_block.mp h

/-- Row `i` and the rows before it stay as they are when unknown `i` is eliminated. -/
theorem getElem_eliminateBelow_of_le (M : Dense α n (n + 1)) {i j : Fin n} (hj : j ≤ i)
    (l : Fin (n + 1)) : (eliminateBelow M i)[j][l] = M[j][l] := by
  rw [getElem_eliminateBelow, if_neg fun hboth => Nat.not_lt.mpr hj hboth.1]

namespace Progress

/-- Complete pivoting tests the coefficient at the place that it has chosen. -/
theorem pivotAt_complete (P : Progress α n) (i : Fin n) :
    P.pivotAt .complete i =
      P.matrix[(largestFrom P.matrix i).1][(largestFrom P.matrix i).2.castSucc] := by
  show ((P.matrix.swapRows i _).swapColumns i.castSucc _)[i][i.castSucc] = _
  rw [Dense.getElem_swapColumns, if_pos rfl]
  simp only [Dense.getElem_swapRows, if_true]

/-- The pivot of a step is one of the coefficients in the rows and columns from its own on. -/
theorem exists_pivotAt_eq (mode : Pivoting) (P : Progress α n) (i : Fin n) :
    ∃ r c : Fin n, i ≤ r ∧ i ≤ c ∧ P.pivotAt mode i = P.matrix[r][c.castSucc] := by
  cases mode with
  | diagonal => exact ⟨i, i, Nat.le_refl _, Nat.le_refl _, rfl⟩
  | complete =>
    obtain ⟨hr, hc⟩ := le_largestFrom P.matrix i
    exact ⟨_, _, hr, hc, P.pivotAt_complete i⟩

/-- The exchanges of a step leave the diagonal before it alone. -/
theorem arrange_diagonal_of_lt (mode : Pivoting) (P : Progress α n) {i j : Fin n} (hj : j < i) :
    (P.arrange mode i).matrix[j][j.castSucc] = P.matrix[j][j.castSucc] := by
  cases mode with
  | diagonal => rfl
  | complete =>
    obtain ⟨hr, hc⟩ := le_largestFrom P.matrix i
    have hji : j ≠ i := Fin.ne_of_lt hj
    have hjr : j ≠ (largestFrom P.matrix i).1 := Fin.ne_of_lt (Nat.lt_of_lt_of_le hj hr)
    have hjc : j ≠ (largestFrom P.matrix i).2 := Fin.ne_of_lt (Nat.lt_of_lt_of_le hj hc)
    show ((P.matrix.swapRows i _).swapColumns i.castSucc _)[j][j.castSucc] = _
    rw [Dense.getElem_swapColumns]
    simp only [Dense.getElem_swapRows, Fin.castSucc_inj, hji, hjr, hjc, if_false]

theorem length_pivots_of_after {M : Dense α n (n + 1)} {k : Nat} {hk : k ≤ n} {P : Progress α n}
    (hP : after mode t M k hk = .ok P) : P.pivots.length = k := by
  refine after_invariant (fun k P => P.pivots.length = k) rfl ?_ hP
  intro k _ Q hlength _
  rw [length_pivots_accepted, hlength]

/-- Every accepted pivot is recorded in its place and stays on the diagonal. -/
theorem exists_pivotAt_of_after {M : Dense α n (n + 1)} {k : Nat} {hk : k ≤ n} {P : Progress α n}
    (hP : after mode t M k hk = .ok P) {i : Fin n} (hi : i.val < k) :
    ∃ Q, after mode t M i.val (Nat.le_of_lt i.isLt) = .ok Q ∧
      Scalar.isBelow t (Q.pivotAt mode i) = false ∧
      P.matrix[i][i.castSucc] = Q.pivotAt mode i ∧
      P.pivots[i.val]? = some (Q.pivotAt mode i) := by
  induction k generalizing P with
  | zero => exact absurd hi (Nat.not_lt_zero _)
  | succ k ih =>
    obtain ⟨R, hR, hpivot, rfl⟩ := after_succ_eq_ok_iff.mp hP
    have hlength := length_pivots_of_after hR
    have hle : i ≤ ⟨k, hk⟩ := Nat.le_of_lt_succ hi
    rcases Nat.lt_or_eq_of_le (Nat.le_of_lt_succ hi) with hlt | rfl
    · obtain ⟨Q, hQ, haccepted, hdiagonal, hrecorded⟩ := ih hR hlt
      refine ⟨Q, hQ, haccepted, ?_, ?_⟩
      · show (eliminateBelow (R.arrange mode ⟨k, hk⟩).matrix ⟨k, hk⟩)[i][i.castSucc] = _
        rw [getElem_eliminateBelow_of_le _ hle, R.arrange_diagonal_of_lt mode hlt, hdiagonal]
      · rw [R.getElem?_pivots_accepted_of_lt mode _ (hlength ▸ hlt), hrecorded]
    · refine ⟨R, hR, hpivot, ?_, ?_⟩
      · exact getElem_eliminateBelow_of_le _ hle _
      · have hrecorded := R.getElem?_pivots_accepted mode i
        rw [hlength] at hrecorded
        exact hrecorded

/-- A pivot that a run has accepted is recorded in its place. -/
theorem getElem?_pivots_of_after {M : Dense α n (n + 1)} {k l : Nat} (hk : k < n) (hl : l ≤ n)
    (hkl : k < l) {P R : Progress α n} (hP : after mode t M k (Nat.le_of_lt hk) = .ok P)
    (hR : after mode t M l hl = .ok R) : R.pivots[k]? = some (P.pivotAt mode ⟨k, hk⟩) := by
  obtain ⟨Q, hQ, -, -, hrecorded⟩ := exists_pivotAt_of_after hR (i := ⟨k, hk⟩) hkl
  obtain rfl := Except.ok.inj (hP.symm.trans hQ)
  exact hrecorded

/-- In the end the recorded pivots are what stands on the diagonal. -/
theorem pivots_eq_diagonal {M : Dense α n (n + 1)} {P : Progress α n}
    (hP : eliminate mode t M = .ok P) :
    P.pivots = List.ofFn fun i : Fin n => P.matrix[i][i.castSucc] := by
  have hlength := length_pivots_of_after hP
  apply List.ext_getElem
  · rw [hlength, List.length_ofFn]
  · intro i hi hi'
    rw [List.length_ofFn] at hi'
    obtain ⟨Q, -, -, hdiagonal, hrecorded⟩ := exists_pivotAt_of_after hP (i := ⟨i, hi'⟩) hi'
    rw [List.getElem?_eq_getElem hi] at hrecorded
    rw [List.getElem_ofFn, Option.some.inj hrecorded, hdiagonal]

end Progress

end LinearSystems.Gauss
