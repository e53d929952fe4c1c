import Mathlib
import LinearSystems.Jacobi.Solution
import LinearSystems.Proofs.Jacobi.Contraction

/-!
# Relabelled and rescaled systems

A system may be written down with its unknowns in another order, its equations in the same order,
and every equation multiplied by a factor of its own. In exact arithmetic the iteration does not
see the difference: dividing by the diagonal removes the factors, a step computes every component
from the iterate before it alone, and neither the largest change nor the norm depends on an order.
So a run on the other system reports the same, with the unknowns in the other order.

What a run reports is said here for every scalar. Over doubles it is what the run computes.
-/

namespace LinearSystems

namespace Dense

variable {n : Nat}

/-- The matrix whose rows and columns both stand in the order of `σ`, with row `i` multiplied by
    `s i`. -/
def relabelled (A : Dense Rat n n) (σ : Equiv.Perm (Fin n)) (s : Fin n → Rat) : Dense Rat n n :=
  ofFn fun i j => s i * A[σ i][σ j]

/-- The right-hand side that belongs to the relabelled matrix. -/
def relabelledRight (b : Vector Rat n) (σ : Equiv.Perm (Fin n)) (s : Fin n → Rat) : Vector Rat n :=
  Vector.ofFn fun i => s i * b[σ i]

/-- The vector whose entries stand in the order of `σ`. -/
def reordered (x : Vector Rat n) (σ : Equiv.Perm (Fin n)) : Vector Rat n :=
  Vector.ofFn fun i => x[σ i]

@[simp]
theorem getElem_relabelled (A : Dense Rat n n) (σ : Equiv.Perm (Fin n)) (s : Fin n → Rat)
    (i j : Fin n) : (A.relabelled σ s)[i][j] = s i * A[σ i][σ j] := by
  simp only [relabelled, getElem_ofFn]

@[simp]
theorem getElem_relabelledRight (b : Vector Rat n) (σ : Equiv.Perm (Fin n)) (s : Fin n → Rat)
    (i : Fin n) : (relabelledRight b σ s)[i] = s i * b[σ i] := by
  simp [relabelledRight]

@[simp]
theorem getElem_reordered (x : Vector Rat n) (σ : Equiv.Perm (Fin n)) (i : Fin n) :
    (reordered x σ)[i] = x[σ i] := by
  simp [reordered]

end Dense

namespace Jacobi

universe u

section

variable {α : Type u} [Scalar α] {n : Nat}

/-- What a run reports: its last iterate, how it ended, the last change, and what the comparison of
    the norm found, if it was asked for. -/
structure Report (α : Type u) (n : Nat) where
  x : Vector α n
  iterations : Nat
  converged : Bool
  termination : String
  lastDifference : Option α
  alphaNorm : Option α
  conditionMet : Option Bool

/-- The report of a run on a fixed-point form. -/
def FixedPoint.report (F : FixedPoint α n) (tolerance : α) (budget : Nat) (check : Bool) :
    Report α n :=
  let run := iterate F tolerance budget
  { x := run.x
    iterations := run.iterations
    converged := run.converged
    termination := if run.converged then "converged" else "max_iterations"
    lastDifference := run.lastDifference
    alphaNorm := if check then some (infNorm F.alpha) else none
    conditionMet := if check then some (Scalar.less (infNorm F.alpha) 1) else none }

end

variable {n : Nat}

/-- Over doubles the report is what a run computes; without a step it shows an infinite change. -/
theorem FixedPoint.params_eq_report (F : FixedPoint Float n) (p : Plan) :
    let r := F.report p.tolerance p.budget p.check
    F.params p =
        { x := r.x, iterations := r.iterations, converged := r.converged,
          finalDifference := r.lastDifference.getD noDifference, alphaNorm := r.alphaNorm } ∧
      (F.params p).termination = r.termination ∧ (F.params p).conditionMet = r.conditionMet := by
  refine ⟨rfl, rfl, ?_⟩
  rw [Params.conditionMet, params, report]
  cases p.check <;> rfl

/-- One fixed-point form is the other one, seen in the order of `σ`. -/
structure FixedPoint.Relabels (σ : Equiv.Perm (Fin n)) (F' F : FixedPoint Rat n) : Prop where
  alpha : ∀ i j : Fin n, F'.alpha[i][j] = F.alpha[σ i][σ j]
  beta : ∀ i : Fin n, F'.beta[i] = F.beta[σ i]

/-- Dividing by the diagonal removes the factors of the rows. -/
theorem relabels_divide (A : Dense Rat n n) (b : Vector Rat n) (σ : Equiv.Perm (Fin n))
    {s : Fin n → Rat} (hs : ∀ i, s i ≠ 0) :
    FixedPoint.Relabels σ
      (FixedPoint.divide (A.relabelled σ s) (Dense.relabelledRight b σ s))
      (FixedPoint.divide A b) where
  alpha := by
    intro i j
    simp only [FixedPoint.getElem_alpha_divide, Dense.getElem_relabelled,
      σ.injective.eq_iff, ← mul_neg]
    by_cases hij : i = j
    · simp [hij]
    · simp only [hij, if_false]
      exact mul_div_mul_left _ _ (hs i)
  beta := by
    intro i
    rw [FixedPoint.getElem_beta_divide, FixedPoint.getElem_beta_divide, Dense.getElem_relabelled,
      Dense.getElem_relabelledRight]
    exact mul_div_mul_left _ _ (hs i)

namespace FixedPoint.Relabels

variable {σ : Equiv.Perm (Fin n)} {F F' : FixedPoint Rat n}

theorem symm (h : Relabels σ F' F) : Relabels σ.symm F F' where
  alpha := by
    intro i j
    rw [h.alpha, σ.apply_symm_apply, σ.apply_symm_apply]
  beta := by
    intro i
    rw [h.beta, σ.apply_symm_apply]

/-- A step takes iterates that correspond to iterates that correspond. -/
theorem next (h : Relabels σ F' F) {x' x : Vector Rat n} (hx : ∀ i : Fin n, x'[i] = x[σ i])
    (i : Fin n) : (F'.next x')[i] = (F.next x)[σ i] := by
  have hsum : ∑ j : Fin n, F'.alpha[i][j] * x'[j] = ∑ j : Fin n, F.alpha[σ i][j] * x[j] := by
    calc ∑ j : Fin n, F'.alpha[i][j] * x'[j]
        = ∑ j : Fin n, F.alpha[σ i][σ j] * x[σ j] := by
          apply Finset.sum_congr rfl
          intro j _
          rw [h.alpha, hx]
      _ = ∑ j : Fin n, F.alpha[σ i][j] * x[j] :=
          Equiv.sum_comp σ fun j : Fin n => F.alpha[σ i][j] * x[j]
  rw [F'.getElem_next, F.getElem_next, Dense.dot_eq_sum, Dense.dot_eq_sum, h.beta, hsum]

/-- So the iterates correspond after every number of steps. -/
theorem iterateAt (h : Relabels σ F' F) (k : Nat) (i : Fin n) :
    (F'.iterateAt k)[i] = (F.iterateAt k)[σ i] := by
  induction k generalizing i with
  | zero => exact h.beta i
  | succ k ih => exact h.next ih i

theorem changeAt_le (h : Relabels σ F' F) (k : Nat) : F'.changeAt k ≤ F.changeAt k := by
  apply change_le (change_nonneg _ _)
  intro i
  rw [h.iterateAt, h.iterateAt]
  exact abs_sub_le_change _ _ (σ i)

/-- The largest change does not depend on the order of the components. -/
theorem changeAt_eq (h : Relabels σ F' F) (k : Nat) : F'.changeAt k = F.changeAt k :=
  le_antisymm (h.changeAt_le k) (h.symm.changeAt_le k)

theorem infNorm_le (h : Relabels σ F' F) : infNorm F'.alpha ≤ infNorm F.alpha := by
  apply Jacobi.infNorm_le (infNorm_nonneg _)
  intro i
  calc ∑ j : Fin n, |F'.alpha[i][j]| = ∑ j : Fin n, |F.alpha[σ i][σ j]| := by
        apply Finset.sum_congr rfl
        intro j _
        rw [h.alpha]
    _ = ∑ j : Fin n, |F.alpha[σ i][j]| := Equiv.sum_comp σ fun j : Fin n => |F.alpha[σ i][j]|
    _ ≤ infNorm F.alpha := sum_abs_le_infNorm _ _

/-- Nor does the norm depend on the order of the rows and columns. -/
theorem infNorm_eq (h : Relabels σ F' F) : infNorm F'.alpha = infNorm F.alpha :=
  le_antisymm h.infNorm_le h.symm.infNorm_le

/-- A run makes the same steps on both forms and ends with iterates that correspond. -/
theorem iterate (h : Relabels σ F' F) (tolerance : Rat) (budget : Nat) :
    Jacobi.iterate F' tolerance budget =
      { Jacobi.iterate F tolerance budget with
        x := Dense.reordered (Jacobi.iterate F tolerance budget).x σ } := by
  have hx (k : Nat) : F'.iterateAt k = Dense.reordered (F.iterateAt k) σ := by
    apply Vector.ext
    intro i hi
    exact (h.iterateAt k ⟨i, hi⟩).trans (Dense.getElem_reordered _ σ ⟨i, hi⟩).symm
  have hlast (k : Nat) : F'.lastChange? k = F.lastChange? k := by
    cases k with
    | zero => rfl
    | succ k => exact congrArg some (h.changeAt_eq k)
  rcases exists_first_less F tolerance budget with ⟨k, hk, hsmall, hfirst⟩ | hnone
  · rw [iterate_of_less hk hsmall hfirst]
    simp only [← h.changeAt_eq] at hsmall hfirst
    rw [iterate_of_less hk hsmall hfirst, hx, h.changeAt_eq]
  · rw [iterate_of_not_less hnone]
    simp only [← h.changeAt_eq] at hnone
    rw [iterate_of_not_less hnone, hx, hlast]

end FixedPoint.Relabels

/-- In exact arithmetic, for every system whose diagonal passes its test, every order `σ` of its
    unknowns and all factors of its rows that are not zero and with which the diagonal passes the
    test again: a run on the relabelled system reports what a run on the system reports, with the
    unknowns in the order of `σ`, whatever the tolerance, the number of allowed steps and the
    request to compare the norm are. -/
theorem report_of_relabelled {t : Rat} {A : Dense Rat n n} (b : Vector Rat n)
    (σ : Equiv.Perm (Fin n)) {s : Fin n → Rat} (hs : ∀ i, s i ≠ 0)
    (hdiagonal : ∀ i : Fin n, t ≤ |A[i][i]|)
    (hrelabelled : ∀ i : Fin n, t ≤ |(A.relabelled σ s)[i][i]|) :
    ∃ F F', toFixedPoint t A b = .ok F ∧
      toFixedPoint t (A.relabelled σ s) (Dense.relabelledRight b σ s) = .ok F' ∧
      ∀ (tolerance : Rat) (budget : Nat) (check : Bool),
        F'.report tolerance budget check =
          { F.report tolerance budget check with
            x := Dense.reordered (F.report tolerance budget check).x σ } := by
  refine ⟨_, _, toFixedPoint_eq_divide hdiagonal b, toFixedPoint_eq_divide hrelabelled _, ?_⟩
  intro tolerance budget check
  have hforms := relabels_divide A b σ hs
  simp only [FixedPoint.report, hforms.iterate, hforms.infNorm_eq]

/-- The unknowns change places, the equations are multiplied by two and by minus one, and the run
    that may make two steps ends at its cap with the same change. -/
theorem report_of_relabelled_two_rows :
    ∃ F F' : FixedPoint Rat 2,
      toFixedPoint (1 / 1000000) #v[#v[4, 1], #v[1, 2]] #v[1, 2] = .ok F ∧
      toFixedPoint (1 / 1000000) #v[#v[4, 2], #v[-1, -4]] #v[4, -1] = .ok F' ∧
      F'.report (1 / 10) 2 true =
        { F.report (1 / 10) 2 true with x := #v[1, 1 / 32] } := by
  have hrows : Dense.relabelled #v[#v[4, 1], #v[1, 2]] (Equiv.swap 0 1) ![2, -1] =
      #v[#v[4, 2], #v[-1, -4]] := by
    decide +kernel
  have hright : Dense.relabelledRight #v[1, 2] (Equiv.swap 0 1) ![2, -1] = #v[4, -1] := by
    decide +kernel
  have hfactors : ∀ i : Fin 2, (![2, -1] : Fin 2 → Rat) i ≠ 0 := by
    decide +kernel
  have hdiagonal : ∀ i : Fin 2,
      (1 / 1000000 : Rat) ≤ |(#v[#v[4, 1], #v[1, 2]] : Dense Rat 2 2)[i][i]| := by
    decide +kernel
  have hrelabelled : ∀ i : Fin 2, (1 / 1000000 : Rat) ≤
      |(Dense.relabelled #v[#v[4, 1], #v[1, 2]] (Equiv.swap 0 1) ![2, -1])[i][i]| := by
    decide +kernel
  obtain ⟨F, F', hF, hF', hreport⟩ :=
    report_of_relabelled #v[1, 2] (Equiv.swap 0 1) hfactors hdiagonal hrelabelled
  have hform : toFixedPoint (1 / 1000000 : Rat) #v[#v[4, 1], #v[1, 2]] #v[1, 2] =
      .ok ⟨#v[#v[0, -1 / 4], #v[-1 / 2, 0]], #v[1 / 4, 1]⟩ := by
    cbv
  obtain rfl := Except.ok.inj (hF.symm.trans hform)
  refine ⟨_, F', hF, ?_, ?_⟩
  · rw [← hF', hrows, hright]
  · rw [hreport]
    cbv

end Jacobi

end LinearSystems
