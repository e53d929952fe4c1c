import LinearSystems.Proofs.Jacobi.Search
import LinearSystems.Proofs.Options
import LinearSystems.Proofs.Systems

/-!
# How a request is answered

A source and a right-hand side make a system, and then only the options decide. If they pass their
checks, the answer is the result of the fixed-point form, or the fault of the first diagonal entry
that is too small for it.
-/

namespace LinearSystems.Jacobi

variable {S : System} {r : Request} {epsilon : Float} {m : Nat} {check : Bool}

/-- A source and a right-hand side are those of a system: a prepared system brings its right-hand
    side with it, and a matrix takes one. -/
inductive Source.Makes : Source → Option Datum → System → Prop
  | prepared {b : Option Datum} (S : System) (hb : Datum.given? b = none) : Makes (.prepared S) b S
  | matrix {A b : Datum} {S : System} (h : System.ofParts A b = .ok S) : Makes (.matrix A) (some b) S

/-- A request that gives a double, a count and a truth value asks for them, if the double is a
    tolerance. -/
theorem asksFor_of_numbers (hpositive : (epsilon.isFinite && 0.0 < epsilon) = true) (m : Nat)
    (check : Bool) :
    Request.AsksFor
      { epsilon := .number (.real epsilon), maxIterations := .number (.whole (m : Int)),
        check := .bool check } epsilon m check where
  epsilon := if_pos hpositive
  maxIterations := Options.checkCount_whole _ m
  backend := rfl
  check := rfl

/-- Nothing is no right-hand side. -/
theorem System.given?_eq_some {A b : Datum} (h : System.ofParts A b = .ok S) :
    Datum.given? (some b) = some b := by
  rcases (System.ofParts_eq_ok_iff.mp h).2 with ⟨t, -, ht, -⟩ | ⟨-, ⟨t, -, ht, -⟩, -⟩
  · exact ht.given?_eq
  · exact ht.given?_eq

theorem Source.Makes.solve_eq {source : Source} {b : Option Datum} (h : source.Makes b S)
    (r : Request) : solve source b r = S.solveWith r := by
  cases h with
  | prepared S hb =>
    unfold solve
    simp only [hb]
  | matrix hparts =>
    unfold solve
    simp only [System.given?_eq_some hparts, hparts, ok_bind]

/-- The answer that an iterated system gives. -/
def System.answer (S : System) (epsilon : Float) (m : Nat) (result : Result (Params S.n)) :
    Solution where
  system := S
  epsilon
  maxIterations := m
  result
  x := result.params.x

/-- Options that pass their checks are answered by the run alone. -/
theorem System.solveWith_eq_map (S : System) (hr : r.AsksFor epsilon m check) :
    S.solveWith r =
      (S.run (Settings.ofNumbers epsilon m check)).map (S.answer epsilon m) := by
  cases hrun : S.run (Settings.ofNumbers epsilon m check) with
  | ok result => exact S.solveWith_eq hr hrun
  | error f =>
    rw [Settings.ofNumbers] at hrun
    rw [System.solveWith, hr.epsilon, hr.maxIterations, hr.backend, hr.check]
    simp only [bind, Except.bind, hrun]
    rfl

/-- So the diagonal decides between the result of the fixed-point form and the fault. -/
theorem System.solveWith_cases (S : System) (epsilon : Float) (m : Nat) :
    (∃ i : Fin S.n, ∀ (r : Request) (check : Bool), r.AsksFor epsilon m check →
      S.solveWith r = .error (.smallDiagonal (i.val + 1) S.matrix[i][i] pivotThreshold)) ∨
    ∃ F, toFixedPoint pivotThreshold S.matrix S.rhs = .ok F ∧
      ∀ (r : Request) (check : Bool), r.AsksFor epsilon m check →
        S.solveWith r = .ok (S.answer epsilon m (F.result epsilon m check)) := by
  cases hform : toFixedPoint pivotThreshold S.matrix S.rhs with
  | error d =>
    refine .inl ⟨d.index, fun r check hr => ?_⟩
    rw [S.solveWith_eq_map hr, S.run_ofNumbers, hform, ← value_of_toFixedPoint_eq_error hform]
    rfl
  | ok F =>
    refine .inr ⟨F, rfl, fun r check hr => ?_⟩
    rw [S.solveWith_eq_map hr, S.run_ofNumbers, hform]
    rfl

end LinearSystems.Jacobi
