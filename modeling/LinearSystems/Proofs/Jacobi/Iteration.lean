import Mathlib
import LinearSystems.Jacobi.Iteration
import LinearSystems.Proofs.Jacobi.FixedPoint
import LinearSystems.Proofs.Largest

/-!
# Runs of the iteration

The iterates of a fixed-point form do not depend on when a run stops. A run with a tolerance and a
budget of steps is the search for the first step, among as many as the budget allows, that changes
no component by the tolerance or more: it makes that step and stops, or else it makes all steps that
it may. This holds for every scalar, so a change that is not a number is never small.
-/

namespace LinearSystems.Jacobi

universe u

variable {α : Type u} [Scalar α] {n : Nat}

/-- The iterate after a number of steps from `beta`. -/
def FixedPoint.iterateAt (F : FixedPoint α n) : Nat → Vector α n
  | 0 => F.beta
  | k + 1 => F.next (F.iterateAt k)

/-- How much step `k`, counted from zero, changes the iterate that it starts from. -/
def FixedPoint.changeAt (F : FixedPoint α n) (k : Nat) : α :=
  change (F.iterateAt (k + 1)) (F.iterateAt k)

/-- The change that the last of some steps makes; none if there is no step. -/
def FixedPoint.lastChange? (F : FixedPoint α n) : Nat → Option α
  | 0 => none
  | k + 1 => some (F.changeAt k)

/-- The change between two iterates is the largest of the magnitudes of the changes of their
    components. -/
theorem isLargest_change [OrderedScalar α] (hn : 0 < n) (y x : Vector α n) :
    IsLargest (List.ofFn fun i : Fin n => Scalar.abs (y[i] - x[i])) (change y x) := by
  have hlargest := Dense.isLargest_maxAbs hn (Dense.difference y x)
  simp only [Dense.difference, getElem_fin, Vector.getElem_zipWith] at hlargest
  exact hlargest

variable {F : FixedPoint α n} {tolerance : α}

/-- A run that stands after `k` steps makes the next `j` of them if none of these is small. -/
theorem iterateFrom_of_not_less (j budget k : Nat)
    (h : ∀ i, k ≤ i → i < k + j → Scalar.less (F.changeAt i) tolerance = false) :
    iterateFrom F tolerance (j + budget) k (F.iterateAt k) (F.lastChange? k) =
      iterateFrom F tolerance budget (k + j) (F.iterateAt (k + j)) (F.lastChange? (k + j)) := by
  -- On the steps still to make; the one made first moves the start, so `k` changes.
  induction j generalizing k with
  | zero => rw [Nat.zero_add, Nat.add_zero]
  | succ j ih =>
    have hstep : Scalar.less (change (F.next (F.iterateAt k)) (F.iterateAt k)) tolerance = false :=
      h k (Nat.le_refl k) (by omega)
    have hrest := ih (k + 1) fun i hi hj => h i (by omega) (by omega)
    rw [Nat.succ_add, iterateFrom]
    simp only [hstep]
    rw [Nat.succ_add_eq_add_succ] at hrest
    exact hrest

/-- A run that comes to a small step makes it and stops. -/
theorem iterate_of_less {k m : Nat} (hk : k < m)
    (hsmall : Scalar.less (F.changeAt k) tolerance = true)
    (hfirst : ∀ i < k, Scalar.less (F.changeAt i) tolerance = false) :
    iterate F tolerance m =
      { x := F.iterateAt (k + 1), iterations := k, converged := true,
        lastDifference := some (F.changeAt k) } := by
  obtain ⟨budget, rfl⟩ : ∃ budget, m = k + (budget + 1) := ⟨m - k - 1, by omega⟩
  have hrun := iterateFrom_of_not_less k (budget + 1) 0 fun i _ hi => hfirst i (by omega)
  have hstop : Scalar.less (change (F.next (F.iterateAt k)) (F.iterateAt k)) tolerance = true :=
    hsmall
  rw [Nat.zero_add, iterateFrom] at hrun
  simp only [hstop, if_true] at hrun
  exact hrun

/-- A run that comes to no small step uses up its budget. -/
theorem iterate_of_not_less {m : Nat}
    (h : ∀ i < m, Scalar.less (F.changeAt i) tolerance = false) :
    iterate F tolerance m =
      { x := F.iterateAt m, iterations := m, converged := false,
        lastDifference := F.lastChange? m } := by
  have hrun := iterateFrom_of_not_less m 0 0 fun i _ hi => h i (by omega)
  rw [Nat.zero_add, iterateFrom] at hrun
  exact hrun

/-- Among the first `m` steps there is a first small one, or none is small. -/
theorem exists_first_less (F : FixedPoint α n) (tolerance : α) (m : Nat) :
    (∃ k < m, Scalar.less (F.changeAt k) tolerance = true ∧
      ∀ i < k, Scalar.less (F.changeAt i) tolerance = false) ∨
    ∀ i < m, Scalar.less (F.changeAt i) tolerance = false := by
  by_cases h : ∃ k, k < m ∧ Scalar.less (F.changeAt k) tolerance = true
  · obtain ⟨hk, hsmall⟩ := Nat.find_spec h
    refine .inl ⟨Nat.find h, hk, hsmall, fun i hi => ?_⟩
    exact Bool.eq_false_iff.mpr fun hless => Nat.find_min h hi ⟨hi.trans hk, hless⟩
  · exact .inr fun i hi => Bool.eq_false_iff.mpr fun hless => h ⟨i, hi, hless⟩

/-- A run that converges has made a small step last. -/
theorem exists_less_of_converged {m : Nat} (h : (iterate F tolerance m).converged = true) :
    ∃ k < m, Scalar.less (F.changeAt k) tolerance = true ∧
      iterate F tolerance m =
        { x := F.iterateAt (k + 1), iterations := k, converged := true,
          lastDifference := some (F.changeAt k) } := by
  rcases exists_first_less F tolerance m with ⟨k, hk, hsmall, hfirst⟩ | hnone
  · exact ⟨k, hk, hsmall, iterate_of_less hk hsmall hfirst⟩
  · rw [iterate_of_not_less hnone] at h
    cases h

/-- A run that may come to a small step converges, at that step or before it. -/
theorem converged_of_less {k m : Nat} (hk : k < m)
    (hsmall : Scalar.less (F.changeAt k) tolerance = true) :
    (iterate F tolerance m).converged = true ∧ (iterate F tolerance m).iterations ≤ k := by
  rcases exists_first_less F tolerance m with ⟨j, hj, hless, hfirst⟩ | hnone
  · rw [iterate_of_less hj hless hfirst]
    refine ⟨rfl, ?_⟩
    show j ≤ k
    by_contra hlater
    rw [hfirst k (by omega)] at hsmall
    cases hsmall
  · rw [hnone k hk] at hsmall
    cases hsmall

/-- A run that makes a step at all answers with the iterate that its last step gives and with the
    change that this step made. -/
theorem exists_last_step (F : FixedPoint α n) (tolerance : α) {m : Nat} (hm : 0 < m) :
    ∃ k < m, (iterate F tolerance m).x = F.iterateAt (k + 1) ∧
      (iterate F tolerance m).lastDifference = some (F.changeAt k) := by
  rcases exists_first_less F tolerance m with ⟨k, hk, hsmall, hfirst⟩ | hnone
  · rw [iterate_of_less hk hsmall hfirst]
    exact ⟨k, hk, rfl, rfl⟩
  · obtain ⟨k, rfl⟩ : ∃ k, m = k + 1 := ⟨m - 1, by omega⟩
    rw [iterate_of_not_less hnone]
    exact ⟨k, Nat.lt_succ_self k, rfl, rfl⟩

end LinearSystems.Jacobi
