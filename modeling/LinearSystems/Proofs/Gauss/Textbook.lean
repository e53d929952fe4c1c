import LinearSystems.Proofs.Gauss.Rearranged
import LinearSystems.Proofs.Gauss.Triangular

/-!
# What is left below the pivots

On paper an eliminated unknown is gone: zeros are written below its pivot, and only the columns
after it are computed. The program computes the column of the unknown like every other one, so what
stands below a pivot may be a small residue, or no number at all, and later exchanges of rows carry
it around.

Nothing comes of it. After every step the run on paper stands at the matrix of the program with what
is below the accepted pivots cleared, and no choice, no factor and no unknown is taken from there.
This holds for every scalar, so nothing is assumed of the arithmetic. What carries the induction is
that a step looks only at the rows and columns from its own on.
-/

namespace LinearSystems

universe u v

variable {α : Type u} [Scalar α] {n : Nat} {mode : Gauss.Pivoting} {t : α}

namespace Dense

/-- The matrix with zeros below the diagonal in its first `k` columns. -/
def cleared (M : Dense α n (n + 1)) (k : Nat) : Dense α n (n + 1) :=
  ofFn fun j l => if l.val < k ∧ l.val < j.val then 0 else M[j][l]

theorem getElem_cleared (M : Dense α n (n + 1)) (k : Nat) (j : Fin n) (l : Fin (n + 1)) :
    (M.cleared k)[j][l] = if l.val < k ∧ l.val < j.val then 0 else M[j][l] := by
  rw [cleared, getElem_ofFn]

/-- On the diagonal, above it, and from column `k` on, nothing is cleared. -/
theorem getElem_cleared_of_not (M : Dense α n (n + 1)) {k : Nat} {j : Fin n} {l : Fin (n + 1)}
    (h : ¬ (l.val < k ∧ l.val < j.val)) : (M.cleared k)[j][l] = M[j][l] := by
  rw [getElem_cleared, if_neg h]

theorem cleared_zero (M : Dense α n (n + 1)) : M.cleared 0 = M :=
  ext_entries fun _ l => M.getElem_cleared_of_not fun h => Nat.not_lt_zero l.val h.1

/-- Rows and columns from `k` on may be exchanged before or after the first `k` columns are
    cleared. -/
theorem cleared_rearranged (M : Dense α n (n + 1)) {k : Nat} {σ τ : Equiv.Perm (Fin n)}
    (hσ : FixesBelow σ k) (hτ : FixesBelow τ k) :
    (M.rearranged σ τ).cleared k = (M.cleared k).rearranged σ τ := by
  have hplace (j l : Fin n) :
      (τ l).val < k ∧ (τ l).val < (σ j).val ↔ l.val < k ∧ l.val < j.val := by
    have hrow := hσ.le_apply_iff j
    have hcolumn := hτ.le_apply_iff l
    by_cases hl : l.val < k
    · rw [hτ l hl]
      by_cases hj : j.val < k
      · rw [hσ j hj]
      · omega
    · omega
  apply ext_augmented
  · intro j l
    simp only [getElem_cleared, getElem_rearranged_castSucc, Fin.val_castSucc, hplace]
  · intro j
    have hright (j : Fin n) : ¬ ((Fin.last n).val < k ∧ (Fin.last n).val < j.val) := by
      rw [Fin.val_last]
      omega
    simp only [getElem_cleared, getElem_rearranged_last, if_neg (hright _)]

end Dense

namespace Gauss

/-- A search does not depend on the values of places that it does not look at. -/
theorem firstLargest_congr {β : Type v} {value value' : β → α} {p : β} {ps : List β}
    (h : ∀ q ∈ p :: ps, value q = value' q) :
    firstLargest value p ps = firstLargest value' p ps := by
  induction ps generalizing p with
  | nil => rfl
  | cons q qs ih =>
    obtain ⟨hp, hq, hqs⟩ := List.forall_mem_cons.mp h |>.imp_right List.forall_mem_cons.mp
    rw [firstLargest_cons, firstLargest_cons, hp, hq]
    apply ih
    split
    · exact List.forall_mem_cons.mpr ⟨hq, hqs⟩
    · exact List.forall_mem_cons.mpr ⟨hp, hqs⟩

/-- The largest coefficient that is left does not stand in a column that is cleared. -/
theorem largestFrom_cleared (M : Dense α n (n + 1)) (i : Fin n) :
    largestFrom (M.cleared i) i = largestFrom M i := by
  apply firstLargest_congr
  intro p hp
  have hcolumn : i ≤ p.2 := by
    rcases List.mem_cons.mp hp with rfl | hp
    · exact Nat.le_refl _
    · exact (mem_block.mp hp).2
  rw [magnitude, magnitude, Dense.getElem_cleared_of_not]
  exact fun h => Nat.not_lt.mpr hcolumn h.1

/-- An unknown is taken from its row on the diagonal and after it. -/
theorem backSubstitute_cleared (M : Dense α n (n + 1)) (k : Nat) :
    backSubstitute (M.cleared k) = backSubstitute M := by
  have hupper {i l : Fin n} (hl : i ≤ l) : (M.cleared k)[i][l.castSucc] = M[i][l.castSucc] :=
    M.getElem_cleared_of_not fun h => Nat.not_lt.mpr hl h.2
  have hright (i : Fin n) : (M.cleared k)[i][Fin.last n] = M[i][Fin.last n] :=
    M.getElem_cleared_of_not fun h => Nat.not_lt.mpr i.isLt.le h.2
  have htail (i : Fin n) (x : Vector α n) : tail (M.cleared k) i x = tail M i x := by
    have hterm (s : α) (l : Fin n) :
        (if i < l then s + (M.cleared k)[i][l.castSucc] * x[l] else s) =
          if i < l then s + M[i][l.castSucc] * x[l] else s := by
      split
      · rename_i hl
        rw [hupper (Nat.le_of_lt hl)]
      · rfl
    simp only [tail, hterm]
  apply (eq_backSubstitute_iff M _).mpr
  intro i
  rw [(eq_backSubstitute_iff (M.cleared k) _).mp rfl i, solveRow, solveRow, hright, htail,
    hupper (Nat.le_refl i)]

namespace Textbook

/-- Eliminates unknown `i` on paper: below its pivot zeros are written, and what is computed is the
    columns after it. -/
def eliminateBelow (M : Dense α n (n + 1)) (i : Fin n) : Dense α n (n + 1) :=
  Dense.ofFn fun j l =>
    if i < j ∧ l = i.castSucc then 0
    else if i < j ∧ i.castSucc < l then M[j][l] - M[j][i.castSucc] / M[i][i.castSucc] * M[i][l]
    else M[j][l]

/-- One step on paper: the choice and the test of the pivot are those of the program. -/
def advance (mode : Pivoting) (t : α) (P : Progress α n) (i : Fin n) :
    Except (Breakdown α n) (Progress α n) :=
  let Q := P.arrange mode i
  let pivot := Q.matrix[i][i.castSucc]
  if Scalar.isBelow t pivot then
    .error { step := i, pivot, progress := Q }
  else
    .ok { Q with matrix := eliminateBelow Q.matrix i, pivots := Q.pivots ++ [pivot] }

/-- The run on paper after its first `k` steps. -/
def after (mode : Pivoting) (t : α) (M : Dense α n (n + 1)) :
    (k : Nat) → k ≤ n → Except (Breakdown α n) (Progress α n)
  | 0, _ => .ok (Progress.start M)
  | k + 1, h => do
    let P ← after mode t M k (Nat.le_of_succ_le h)
    advance mode t P ⟨k, h⟩

/-- Solves `[A|b]` on paper, or says at which step a pivot was too small. -/
def solve (mode : Pivoting) (t : α) (M : Dense α n (n + 1)) :
    Except (Breakdown α n) (Solved α n) :=
  (after mode t M n (Nat.le_refl n)).map fun P => P.solved mode

theorem getElem_eliminateBelow (M : Dense α n (n + 1)) (i j : Fin n) (l : Fin (n + 1)) :
    (eliminateBelow M i)[j][l] =
      if i < j ∧ l = i.castSucc then 0
      else if i < j ∧ i.castSucc < l then M[j][l] - M[j][i.castSucc] / M[i][i.castSucc] * M[i][l]
      else M[j][l] := by
  rw [eliminateBelow, Dense.getElem_ofFn]

/-- What is written on paper is what the program computes, with one more column cleared. -/
theorem eliminateBelow_cleared (M : Dense α n (n + 1)) (i : Fin n) :
    eliminateBelow (M.cleared i) i = (Gauss.eliminateBelow M i).cleared (i.val + 1) := by
  have hkept (j : Fin n) {l : Fin (n + 1)} (hl : i.castSucc ≤ l) : (M.cleared i)[j][l] = M[j][l] :=
    M.getElem_cleared_of_not fun h => Nat.not_lt.mpr hl h.1
  apply Dense.ext_entries
  intro j l
  rw [getElem_eliminateBelow, (Gauss.eliminateBelow M i).getElem_cleared,
    Gauss.getElem_eliminateBelow]
  by_cases hij : i < j
  · rcases lt_trichotomy l i.castSucc with hlt | rfl | hgt
    · -- A column that was cleared before.
      have hcleared : l.val < i.val + 1 ∧ l.val < j.val :=
        ⟨Nat.lt_succ_of_lt hlt, Nat.lt_trans hlt hij⟩
      rw [if_neg fun h => hlt.ne h.2, if_neg fun h => hlt.not_gt h.2, if_pos hcleared,
        Dense.getElem_cleared, if_pos ⟨hlt, hcleared.2⟩]
    · rw [if_pos ⟨hij, rfl⟩, if_pos ⟨Nat.lt_succ_self _, hij⟩]
    · have hnot : ¬ (l.val < i.val + 1 ∧ l.val < j.val) := fun h =>
        Nat.not_lt.mpr (Nat.le_of_lt_succ h.1) hgt
      rw [if_neg fun h => hgt.ne' h.2, if_pos ⟨hij, hgt⟩, if_neg hnot, if_pos ⟨hij, hgt.le⟩,
        hkept j hgt.le, hkept j le_rfl, hkept i le_rfl, hkept i hgt.le]
  · -- A row that stays as it is.
    have hsame : l.val < i.val + 1 ∧ l.val < j.val ↔ l.val < i.val ∧ l.val < j.val := by omega
    simp only [hij, false_and, if_false, Dense.getElem_cleared, hsame]

end Textbook

namespace Progress

/-- The state with its matrix cleared below the diagonal in the first `k` columns. -/
def cleared (P : Progress α n) (k : Nat) : Progress α n :=
  { P with matrix := P.matrix.cleared k }

/-- The exchanges of a step do not depend on what is below the pivots before it. -/
theorem arrange_cleared (mode : Pivoting) (P : Progress α n) (i : Fin n) :
    (P.cleared i).arrange mode i = (P.arrange mode i).cleared i := by
  cases mode with
  | diagonal => rfl
  | complete =>
    obtain ⟨hr, hc⟩ := le_largestFrom P.matrix i
    have hmatrix := P.matrix.cleared_rearranged
      (FixesBelow.swap (Nat.le_refl i.val) hr) (FixesBelow.swap (Nat.le_refl i.val) hc)
    simp only [arrange_complete, cleared, largestFrom_cleared, hmatrix]

theorem pivotAt_cleared (mode : Pivoting) (P : Progress α n) (i : Fin n) :
    (P.cleared i).pivotAt mode i = P.pivotAt mode i := by
  rw [pivotAt, arrange_cleared]
  exact Dense.getElem_cleared_of_not _ fun h => Nat.lt_irrefl _ h.1

end Progress

namespace Breakdown

/-- The breakdown with what is below the accepted pivots cleared. -/
def cleared (b : Breakdown α n) : Breakdown α n :=
  { b with progress := b.progress.cleared b.step }

end Breakdown

namespace Textbook

/-- A step on paper does what the step of the program does, apart from what is below the pivots. -/
theorem advance_cleared (mode : Pivoting) (t : α) (P : Progress α n) (i : Fin n) :
    advance mode t (P.cleared i) i =
      match P.advance mode t i with
      | .ok Q => .ok (Q.cleared (i.val + 1))
      | .error b => .error b.cleared := by
  have hpivot : ((P.arrange mode i).cleared i).matrix[i][i.castSucc] = P.pivotAt mode i := by
    rw [← P.pivotAt_cleared, Progress.pivotAt, Progress.arrange_cleared]
  rw [Progress.advance_eq, advance, Progress.arrange_cleared]
  simp only [hpivot]
  cases Scalar.isBelow t (P.pivotAt mode i) with
  | true => rfl
  | false =>
    have hmatrix := eliminateBelow_cleared (P.arrange mode i).matrix i
    simp only [Bool.false_eq_true, if_false, Progress.cleared, Progress.accepted, hmatrix,
      P.pivots_arrange mode i]

/-- So a run on paper is the run of the program, apart from what is below the pivots. -/
theorem after_eq (mode : Pivoting) (t : α) (M : Dense α n (n + 1)) (k : Nat) (hk : k ≤ n) :
    after mode t M k hk =
      match Progress.after mode t M k hk with
      | .ok P => .ok (P.cleared k)
      | .error b => .error b.cleared := by
  induction k with
  | zero =>
    show Except.ok (Progress.start M) = .ok ((Progress.start M).cleared 0)
    rw [Progress.cleared, Progress.start, Dense.cleared_zero]
  | succ k ih =>
    rw [after, ih (Nat.le_of_succ_le hk), Progress.after_succ]
    cases Progress.after mode t M k (Nat.le_of_succ_le hk) with
    | error b => rfl
    | ok P => exact advance_cleared mode t P ⟨k, hk⟩

end Textbook

theorem Progress.solved_cleared (mode : Pivoting) (P : Progress α n) (k : Nat) :
    (P.cleared k).solved mode = P.solved mode := by
  cases mode <;> simp only [solved, cleared, backSubstitute_cleared]

/-- What elimination leaves below the pivots is never used: for every matrix, with either way of
    pivoting, the program and the run on paper, which writes zeros there, return the same unknowns,
    the same pivots and the same order of the columns, or break down at the same step with the same
    pivot. -/
theorem solve_eq_on_paper (mode : Pivoting) (t : α) (M : Dense α n (n + 1)) :
    (∃ s, solve mode t M = .ok s ∧ Textbook.solve mode t M = .ok s) ∨
    ∃ b c, solve mode t M = .error b ∧ Textbook.solve mode t M = .error c ∧
      c.step = b.step ∧ c.pivot = b.pivot := by
  have hpaper := Textbook.after_eq mode t M n (Nat.le_refl n)
  cases hrun : eliminate mode t M with
  | ok P =>
    rw [show Progress.after mode t M n (Nat.le_refl n) = .ok P from hrun] at hpaper
    refine .inl ⟨P.solved mode, solve_eq_ok_iff.mpr ⟨P, hrun, rfl⟩, ?_⟩
    rw [Textbook.solve, hpaper, ← P.solved_cleared mode n]
    rfl
  | error b =>
    rw [show Progress.after mode t M n (Nat.le_refl n) = .error b from hrun] at hpaper
    refine .inr ⟨b, b.cleared, solve_eq_error_iff.mpr hrun, ?_, rfl, rfl⟩
    rw [Textbook.solve, hpaper]
    rfl

/-- Such a residue is there: 1 less 49 times the double next to 1 / 49 is not zero. -/
example : (eliminateBelow (#v[#v[49, 1, 2], #v[1, 3, 4]] : Dense Float 2 3) 0)[1][0] ≠ 0 := by
  decide +kernel

end Gauss

end LinearSystems
