import Mathlib
import LinearSystems.Jacobi.Solution
import LinearSystems.Proofs.Divisor
import LinearSystems.Proofs.Jacobi.Iteration
import LinearSystems.Proofs.Largest
import LinearSystems.Proofs.Tensor.Check

/-!
# The iteration as a bounded search

What an iterated system answers, for every tolerance and every number of allowed steps: the run is
the search for the first step that changes no component by as much as the tolerance. The options
reach the iteration as the numbers that they are, whichever way they were given.
-/

namespace LinearSystems.Jacobi

/-- Settings that are a double, a count and a truth value. -/
def Settings.ofNumbers (epsilon : Float) (maxIterations : Nat) (check : Bool) : Settings where
  epsilon := .number (.real epsilon)
  maxIterations := .number (.whole maxIterations)
  check := .bool check

/-- The options that a request gives pass their checks and are these. -/
structure Request.AsksFor (r : Request) (epsilon : Float) (maxIterations : Nat) (check : Bool) :
    Prop where
  epsilon : Options.checkPositive "epsilon" r.epsilon = .ok epsilon
  maxIterations : Options.checkCount "max_iterations" r.maxIterations = .ok maxIterations
  backend : Options.checkBackend r.backend = .ok ()
  check : r.check.truth = .ok check

/-- What a result says of how its run ended. -/
structure Ended {n : Nat} (result : Result (Params n)) (converged : Bool) (termination : String)
    (iterations : Nat) (x : Vector Float n) (difference : Float) : Prop where
  converged : result.params.converged = converged
  termination : ∃ facts, result.info = .record facts ∧
    facts.lookup "termination" = some (.text termination)
  iterations : result.params.iterations = iterations
  x : result.params.x = x
  finalDifference : result.params.finalDifference = difference

/-- Numbers are taken as they are. If no step is allowed, the tolerance is not read. -/
theorem Settings.plan_ofNumbers (epsilon : Float) (m : Nat) (check : Bool) :
    (Settings.ofNumbers epsilon m check).plan =
      .ok { tolerance := if m = 0 then 0.0 else epsilon, budget := m, check } := by
  cases m <;> rfl

/-- A count that allows no step is zero, which is short enough to be shown. -/
theorem Plan.checkCap_whole (p : Plan) :
    p.checkCap (.number (.whole p.budget)) = .ok () := by
  rw [checkCap]
  split
  · next hzero =>
    rw [hzero]
    exact Options.checkShown_zero
  · rfl

theorem System.solveWith_eq (S : System) {r : Request} {epsilon : Float} {m : Nat} {check : Bool}
    (hr : r.AsksFor epsilon m check) {result : Result (Params S.n)}
    (hresult : S.run (Settings.ofNumbers epsilon m check) = .ok result) :
    S.solveWith r =
      .ok { system := S, epsilon, maxIterations := m, result, x := result.params.x } := by
  rw [Settings.ofNumbers] at hresult
  rw [System.solveWith, hr.epsilon, hr.maxIterations, hr.backend, hr.check]
  simp only [bind, Except.bind, pure, Except.pure, hresult]

/-- The result of a run on a fixed-point form. -/
def FixedPoint.result {n : Nat} (F : FixedPoint Float n) (epsilon : Float) (m : Nat)
    (check : Bool) : Result (Params n) :=
  let p := F.params { tolerance := epsilon, budget := m, check }
  .ofRun p (p.info (Settings.ofNumbers epsilon m check)) ["transform", "iterations"] backendName
    (p.warnings (.number (.whole m)))

/-- A run with numbers for options fails on a small diagonal entry only. -/
theorem System.run_ofNumbers (S : System) (epsilon : Float) (m : Nat) (check : Bool) :
    S.run (Settings.ofNumbers epsilon m check) =
      match toFixedPoint pivotThreshold S.matrix S.rhs with
      | .error d => .error (.smallDiagonal (d.index.val + 1) d.value pivotThreshold)
      | .ok F => .ok (F.result epsilon m check) := by
  rw [System.run]
  cases toFixedPoint pivotThreshold S.matrix S.rhs with
  | error d => rfl
  | ok F =>
    simp only [Settings.plan_ofNumbers, ok_bind]
    have hcap := Plan.checkCap_whole
      { tolerance := if m = 0 then 0.0 else epsilon, budget := m, check := check }
    simp only [Settings.ofNumbers, hcap, ok_bind]
    -- Without a step the tolerance does not matter.
    cases m <;> rfl

/-- A run with a fixed-point form does not fail, and its result tells how the iteration ended. -/
theorem System.exists_run_eq_ok (S : System) {F : FixedPoint Float S.n}
    (hF : toFixedPoint pivotThreshold S.matrix S.rhs = .ok F) (epsilon : Float) (m : Nat)
    (check : Bool) {run : Run Float S.n} (hrun : iterate F epsilon m = run) :
    ∃ result, S.run (Settings.ofNumbers epsilon m check) = .ok result ∧
      Ended result run.converged (if run.converged then "converged" else "max_iterations")
        run.iterations run.x (run.lastDifference.getD noDifference) := by
  subst hrun
  refine ⟨F.result epsilon m check, ?_, ?_⟩
  · rw [S.run_ofNumbers, hF]
  · exact ⟨rfl, ⟨_, rfl, rfl⟩, rfl, rfl, rfl⟩

/-- For every system with an admissible diagonal, every tolerance and every number `m` of allowed
    steps: the changes of the steps are the largest magnitudes of the changes of the components, and
    not numbers where one of those is none; and a run, which never fails, ends with the first step
    among the first `m` whose change is below the tolerance, counting the steps before it, or else
    with the last of the `m` steps. Every request that asks for these numbers has the same
    result. -/
theorem run_eq_bounded_search (S : System) (hdiagonal : ∀ i : Fin S.n, Admissible S.matrix[i][i])
    (epsilon : Float) (m : Nat) (check : Bool) :
    ∃ F, toFixedPoint pivotThreshold S.matrix S.rhs = .ok F ∧
      (F.iterateAt 0 = F.beta ∧ ∀ (k : Nat) (i : Fin S.n),
        (F.iterateAt (k + 1))[i] = F.beta[i] + Dense.dot F.alpha[i] (F.iterateAt k)) ∧
      (∀ k, IsLargest
        (List.ofFn fun i : Fin S.n => ((F.iterateAt (k + 1))[i] - (F.iterateAt k)[i]).abs)
        (F.changeAt k)) ∧
      ∃ result, S.run (Settings.ofNumbers epsilon m check) = .ok result ∧
        (∀ r : Request, r.AsksFor epsilon m check → S.solveWith r =
          .ok { system := S, epsilon, maxIterations := m, result, x := result.params.x }) ∧
        (∀ k < m, F.changeAt k < epsilon → (∀ j < k, ¬ F.changeAt j < epsilon) →
          Ended result true "converged" k (F.iterateAt (k + 1)) (F.changeAt k)) ∧
        ((∀ k < m, ¬ F.changeAt k < epsilon) →
          Ended result false "max_iterations" m (F.iterateAt m)
            (if m = 0 then noDifference else F.changeAt (m - 1))) := by
  obtain ⟨F, hF⟩ : ∃ F, toFixedPoint pivotThreshold S.matrix S.rhs = .ok F :=
    ⟨_, toFixedPoint_eq_ok_iff.mpr
      ⟨fun i => isBelow_pivotThreshold_eq_false_iff.mpr (.inr (hdiagonal i)), rfl⟩⟩
  refine ⟨F, hF, ⟨rfl, ?_⟩, ?_, ?_⟩
  · intro k i
    exact F.getElem_next (F.iterateAt k) i
  · intro k
    exact isLargest_change S.n_pos (F.iterateAt (k + 1)) (F.iterateAt k)
  · obtain ⟨result, hresult, hended⟩ := S.exists_run_eq_ok hF epsilon m check rfl
    refine ⟨result, hresult, fun r hr => S.solveWith_eq hr hresult, ?_, ?_⟩
    · intro k hk hsmall hfirst
      rw [iterate_of_less hk (Double.less_eq_true_iff.mpr hsmall)
        fun j hj => Double.less_eq_false_iff.mpr (hfirst j hj)] at hended
      exact hended
    · intro hnone
      rw [iterate_of_not_less fun k hk => Double.less_eq_false_iff.mpr (hnone k hk)] at hended
      cases m with
      | zero => exact hended
      | succ m => exact hended

/-- The second step of this system changes nothing, so a run that may make two steps ends with it,
    and a run that may make one does not come to it. -/
theorem run_eq_bounded_search_two_rows :
    ∃ (S : System) (F : FixedPoint Float S.n),
      toFixedPoint pivotThreshold S.matrix S.rhs = .ok F ∧
      (∃ result, S.run (Settings.ofNumbers 1e-6 2 true) = .ok result ∧
        Ended result true "converged" 1 (F.iterateAt 2) (F.changeAt 1)) ∧
      ∃ result, S.run (Settings.ofNumbers 1e-6 1 true) = .ok result ∧
        Ended result false "max_iterations" 1 (F.iterateAt 1) (F.changeAt 0) := by
  have hmatrix : ∀ i j : Fin 2,
      (#v[#v[1, 1], #v[0, 1]] : Dense Float 2 2)[i][j].isFinite = true := by
    decide +kernel
  have hrhs : ∀ i : Fin 2, (#v[1, 1] : Vector Float 2)[i].isFinite = true := by
    decide +kernel
  have hdiagonal : ∀ i : Fin 2, Admissible (#v[#v[1, 1], #v[0, 1]] : Dense Float 2 2)[i][i] := by
    simp only [Admissible]
    decide +kernel
  have hchanges : (match toFixedPoint pivotThreshold
      (#v[#v[1, 1], #v[0, 1]] : Dense Float 2 2) #v[1, 1] with
      | .ok F => !decide (F.changeAt 0 < 1e-6) && decide (F.changeAt 1 < 1e-6)
      | .error _ => false) = true := by
    decide +kernel
  obtain ⟨F, hF, -, -, found, hfound, -, hsearch, -⟩ := run_eq_bounded_search
    ⟨2, Nat.two_pos, #v[#v[1, 1], #v[0, 1]], #v[1, 1], hmatrix, hrhs⟩ hdiagonal 1e-6 2 true
  obtain ⟨F', hF', -, -, capped, hcapped, -, -, hcap⟩ := run_eq_bounded_search
    ⟨2, Nat.two_pos, #v[#v[1, 1], #v[0, 1]], #v[1, 1], hmatrix, hrhs⟩ hdiagonal 1e-6 1 true
  obtain rfl : F' = F := Except.ok.inj (hF'.symm.trans hF)
  rw [show toFixedPoint pivotThreshold (#v[#v[1, 1], #v[0, 1]] : Dense Float 2 2) #v[1, 1] = .ok F'
    from hF] at hchanges
  rw [Bool.and_eq_true, Bool.not_eq_true', decide_eq_true_iff, decide_eq_false_iff_not]
    at hchanges
  have hfirst (j : Nat) (hj : j < 1) : ¬ F'.changeAt j < 1e-6 := by
    obtain rfl : j = 0 := by omega
    exact hchanges.1
  exact ⟨_, F', hF, ⟨found, hfound, hsearch 1 (by decide) hchanges.2 hfirst⟩,
    capped, hcapped, hcap hfirst⟩

end LinearSystems.Jacobi
