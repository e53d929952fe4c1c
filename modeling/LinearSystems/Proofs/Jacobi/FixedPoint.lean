import Mathlib
import LinearSystems.Jacobi.FixedPoint
import LinearSystems.Proofs.Exact

/-!
# The fixed-point form of a system

When a system has a fixed-point form and which. In exact arithmetic the fixed points of the form are
the solutions of the system.
-/

namespace LinearSystems.Jacobi

universe u

section

variable {α : Type u} [Scalar α] {n : Nat}

theorem firstSmall?_eq_none_iff {t : α} {A : Dense α n n} :
    firstSmall? t A = none ↔ ∀ i : Fin n, Scalar.isBelow t A[i][i] = false := by
  simp only [firstSmall?, List.find?_eq_none, List.mem_finRange, true_implies, Bool.not_eq_true]

theorem firstSmall?_eq_some_iff {t : α} {A : Dense α n n} {i : Fin n} :
    firstSmall? t A = some i ↔
      Scalar.isBelow t A[i][i] = true ∧ ∀ j < i, Scalar.isBelow t A[j][j] = false := by
  rw [firstSmall?, List.find?_eq_some_iff_getElem]
  simp only [List.getElem_finRange, List.length_finRange, Bool.not_eq_true']
  apply and_congr_right
  intro _
  constructor
  · rintro ⟨k, hk, rfl, hbefore⟩ j hj
    exact hbefore j.val hj
  · intro hbefore
    exact ⟨i.val, i.isLt, rfl, fun j hj => hbefore ⟨j, hj.trans i.isLt⟩ hj⟩

/-- A system has the fixed-point form that dividing by its diagonal gives exactly if no diagonal
    entry is too small for it. -/
theorem toFixedPoint_eq_ok_iff {t : α} {A : Dense α n n} {b : Vector α n} {F : FixedPoint α n} :
    toFixedPoint t A b = .ok F ↔
      (∀ i : Fin n, Scalar.isBelow t A[i][i] = false) ∧ F = FixedPoint.divide A b := by
  rw [← firstSmall?_eq_none_iff, toFixedPoint]
  cases firstSmall? t A with
  | some i => simp
  | none => simp [eq_comm]

/-- A system without a fixed-point form is given up at the first diagonal entry that is too small
    for it. -/
theorem toFixedPoint_eq_error_iff {t : α} {A : Dense α n n} {b : Vector α n}
    {d : SmallDiagonal α n} :
    toFixedPoint t A b = .error d ↔
      firstSmall? t A = some d.index ∧ d.value = A[d.index][d.index] := by
  obtain ⟨i, v⟩ := d
  rw [toFixedPoint]
  cases firstSmall? t A with
  | none => simp
  | some j =>
    simp only [Except.error.injEq, SmallDiagonal.mk.injEq, Option.some.injEq]
    apply and_congr_right
    rintro rfl
    exact eq_comm

theorem FixedPoint.getElem_alpha_divide (A : Dense α n n) (b : Vector α n) (i j : Fin n) :
    (FixedPoint.divide A b).alpha[i][j] = if i = j then 0 else -A[i][j] / A[i][i] := by
  simp only [FixedPoint.divide, Dense.getElem_ofFn]

theorem FixedPoint.getElem_beta_divide (A : Dense α n n) (b : Vector α n) (i : Fin n) :
    (FixedPoint.divide A b).beta[i] = b[i] / A[i][i] := by
  simp [FixedPoint.divide]

/-- The fault of a system without a fixed-point form shows the diagonal entry that it names. -/
theorem value_of_toFixedPoint_eq_error {t : α} {A : Dense α n n} {b : Vector α n}
    {d : SmallDiagonal α n} (h : toFixedPoint t A b = .error d) :
    d.value = A[d.index][d.index] :=
  (toFixedPoint_eq_error_iff.mp h).2

/-- Every component of a step is computed from the iterate that the step starts from. -/
theorem FixedPoint.getElem_next (F : FixedPoint α n) (x : Vector α n) (i : Fin n) :
    (F.next x)[i] = F.beta[i] + Dense.dot F.alpha[i] x := by
  simp [FixedPoint.next, Dense.mulVec]

end

variable {n : Nat}

/-- In exact arithmetic a system has a fixed-point form if no diagonal entry is below the threshold.
    -/
theorem toFixedPoint_eq_divide {t : Rat} {A : Dense Rat n n}
    (hdiagonal : ∀ i : Fin n, t ≤ |A[i][i]|) (b : Vector Rat n) :
    toFixedPoint t A b = .ok (FixedPoint.divide A b) :=
  toFixedPoint_eq_ok_iff.mpr
    ⟨fun i => Scalar.isBelow_rat_eq_false_iff.mpr (hdiagonal i), rfl⟩

/-- What a step changes in a component is what its row is short of, divided by its diagonal entry.
    -/
theorem mul_next_divide_sub {A : Dense Rat n n} (b x : Vector Rat n) {i : Fin n}
    (hi : A[i][i] ≠ 0) :
    A[i][i] * (((FixedPoint.divide A b).next x)[i] - x[i]) =
      b[i] - ∑ j : Fin n, A[i][j] * x[j] := by
  have hterm (j : Fin n) : A[i][i] * ((FixedPoint.divide A b).alpha[i][j] * x[j]) =
      (if j = i then A[i][i] * x[i] else 0) - A[i][j] * x[j] := by
    rw [FixedPoint.getElem_alpha_divide]
    by_cases hij : j = i
    · subst hij
      simp
    · rw [if_neg (Ne.symm hij), if_neg hij]
      field_simp
      ring
  calc A[i][i] * (((FixedPoint.divide A b).next x)[i] - x[i])
      = A[i][i] * (b[i] / A[i][i]) +
          ∑ j : Fin n, A[i][i] * ((FixedPoint.divide A b).alpha[i][j] * x[j]) -
          A[i][i] * x[i] := by
        rw [FixedPoint.getElem_next, FixedPoint.getElem_beta_divide, Dense.dot_eq_sum, ← Finset.mul_sum]
        ring
    _ = b[i] - ∑ j : Fin n, A[i][j] * x[j] := by
        rw [Finset.sum_congr rfl fun j _ => hterm j, Finset.sum_sub_distrib,
          Finset.sum_ite_eq' Finset.univ i, if_pos (Finset.mem_univ i), mul_div_cancel₀ _ hi]
        ring

/-- A vector is a fixed point of the form exactly if it solves the system. -/
theorem next_divide_eq_self_iff {A : Dense Rat n n} (hdiagonal : ∀ i : Fin n, A[i][i] ≠ 0)
    (b x : Vector Rat n) :
    (FixedPoint.divide A b).next x = x ↔ Dense.IsSolution (Dense.glue A b) x := by
  rw [Dense.isSolution_glue_iff]
  constructor
  · intro hfixed i
    have hrow := mul_next_divide_sub b x (hdiagonal i)
    rw [hfixed, sub_self, mul_zero] at hrow
    exact (sub_eq_zero.mp hrow.symm).symm
  · intro hx
    apply Vector.ext
    intro i hi
    have hrow := mul_next_divide_sub b x (hdiagonal ⟨i, hi⟩)
    rw [hx ⟨i, hi⟩, sub_self] at hrow
    exact sub_eq_zero.mp ((mul_eq_zero.mp hrow).resolve_left (hdiagonal ⟨i, hi⟩))

end LinearSystems.Jacobi
