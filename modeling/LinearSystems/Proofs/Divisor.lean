import LinearSystems.FaultClass
import LinearSystems.Proofs.Double
import LinearSystems.Tolerance

/-!
# Divisors

What is asked of the values that a solver divides by, and how it can go wrong. The test of a divisor
refuses everything that is too small; but it is an order test, and a value that is not a number is
not smaller than anything. A solver keeps its promise exactly if it does not lose itself in such
values, whatever losing itself comes to for that solver.
-/

namespace LinearSystems

/-- What a divisor has to be: a number of at least the pivot threshold in magnitude. -/
def Admissible (v : Float) : Prop :=
  v.isNaN = false ∧ pivotThreshold ≤ v.abs

/-- The test of a divisor accepts the admissible values, and beside them those that are not
    numbers. -/
theorem isBelow_pivotThreshold_eq_false_iff {v : Float} :
    Scalar.isBelow pivotThreshold v = false ↔ v.isNaN = true ∨ Admissible v := by
  have hthreshold : pivotThreshold.isNaN = false := by decide +kernel
  show decide (v.abs < pivotThreshold) = false ↔ _
  rw [decide_eq_false_iff_not, Double.not_lt_iff hthreshold, Double.isNaN_abs, Admissible]
  cases v.isNaN with
  | true => simp
  | false => simp

/-- A value that is not a number is no divisor. -/
theorem not_admissible_of_isNaN {v : Float} (hv : v.isNaN = true) : ¬ Admissible v := by
  intro h
  rw [h.1] at hv
  cases hv

variable {ρ : Type}

/-- The run raises a fault that says of some divisor that it is too small. -/
def Refuses (run : Except Fault ρ) : Prop :=
  ∃ f, run = .error f ∧ (f.faultClass = .singular ∨ f.faultClass = .zeroDiagonal)

/-- The promise about divisors: nothing but admissible values is divided by, and a run that comes to
    need another divisor raises a fault instead of returning a solution. -/
structure Guarded (required used : Float → Prop) (run : Except Fault ρ) : Prop where
  admissible : ∀ v, used v → Admissible v
  refuses : ∀ v, required v → ¬ Admissible v → Refuses run

/-- If divisors can only fail to be admissible by the run getting lost, and a lost run has divided
    by a value that is not a number, then the promise is kept by the runs that do not get lost. -/
theorem guarded_iff_not {required used : Float → Prop} {run : Except Fault ρ} {lost : Prop}
    (hused : ∀ v, used v → Admissible v ∨ lost)
    (hrequired : ∀ v, required v → Refuses run ∨ Admissible v ∨ lost)
    (hlost : lost → ∃ v, used v ∧ v.isNaN = true) : Guarded required used run ↔ ¬ lost := by
  constructor
  · intro h hl
    obtain ⟨v, hv, hnan⟩ := hlost hl
    exact not_admissible_of_isNaN hnan (h.admissible v hv)
  · intro hl
    refine ⟨?_, ?_⟩
    · intro v hv
      exact (hused v hv).resolve_right hl
    · intro v hv hbad
      rcases hrequired v hv with hrefuses | hgood | hbadRun
      · exact hrefuses
      · exact absurd hgood hbad
      · exact absurd hbadRun hl

end LinearSystems
