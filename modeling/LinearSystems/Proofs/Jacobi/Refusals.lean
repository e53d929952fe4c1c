import LinearSystems.Proofs.Jacobi.Request
import LinearSystems.Proofs.Settles

/-!
# Faults of the iteration

With a system at hand, all that can still go wrong on purpose is an option that is refused, or a
diagonal entry that is too small. Beside these there are the two kinds of numbers that the checks on
the options cannot look at, or cannot show; a request with such a number ends in another fault.
-/

namespace LinearSystems.Jacobi

variable {S : System} {r : Request}

/-- A request gives an option that its check cannot deal with. The tolerance is looked at first, so
    the count only matters if the tolerance passes. -/
def Request.IsBeyondChecks (r : Request) : Prop :=
  r.epsilon.IsBeyondDoubles ∨
    (∃ x, Options.checkPositive "epsilon" r.epsilon = .ok x) ∧ r.maxIterations.IsBeyondWriting

theorem System.solveWith_of_checkPositive_eq_error {f : Fault}
    (h : Options.checkPositive "epsilon" r.epsilon = .error f) : S.solveWith r = .error f := by
  rw [System.solveWith, h]
  rfl

theorem System.solveWith_of_checkCount_eq_error {epsilon : Float} {f : Fault}
    (hepsilon : Options.checkPositive "epsilon" r.epsilon = .ok epsilon)
    (h : Options.checkCount "max_iterations" r.maxIterations = .error f) :
    S.solveWith r = .error f := by
  rw [System.solveWith, hepsilon, ok_bind, h]
  rfl

/-- A request settles exactly if it gives no option that is beyond the checks. -/
theorem System.solveWith_cases_beyond (S : System) {check : Bool}
    (hbackend : Options.checkBackend r.backend = .ok ()) (hcheck : r.check.truth = .ok check) :
    r.IsBeyondChecks ∧ (∃ f, S.solveWith r = .error f ∧ f.isSolverFault = false) ∨
      ¬ r.IsBeyondChecks ∧ Settles (fun s => s.system = S) (S.solveWith r) := by
  rcases Options.checkPositive_cases "epsilon" r.epsilon with
    ⟨hbeyond, hescape⟩ | ⟨hnear, ⟨epsilon, hepsilon, -, -⟩ | ⟨cause, hrefused⟩⟩
  · exact .inl ⟨.inl hbeyond, _, solveWith_of_checkPositive_eq_error hescape, rfl⟩
  · rcases Options.checkCount_cases "max_iterations" r.maxIterations with
      ⟨hlong, hescape⟩ | ⟨hshort, ⟨m, -, hm⟩ | ⟨cause, hrefused⟩⟩
    · exact .inl ⟨.inr ⟨⟨epsilon, hepsilon⟩, hlong⟩, _,
        solveWith_of_checkCount_eq_error hepsilon hescape, rfl⟩
    all_goals
      have hwithin : ¬ r.IsBeyondChecks := by
        rintro (hbeyond | ⟨-, hlong⟩)
        · exact hnear hbeyond
        · exact hshort hlong
      refine .inr ⟨hwithin, ?_⟩
    · rcases S.solveWith_cases epsilon m with ⟨i, hfault⟩ | ⟨F, -, hanswer⟩
      · rw [hfault r check ⟨hepsilon, hm, hbackend, hcheck⟩]
        exact .error rfl
      · rw [hanswer r check ⟨hepsilon, hm, hbackend, hcheck⟩]
        exact .ok rfl
    · rw [solveWith_of_checkCount_eq_error hepsilon hrefused]
      exact .error rfl
  · have hwithin : ¬ r.IsBeyondChecks := by
      rintro (hbeyond | ⟨⟨x, hx⟩, -⟩)
      · exact hnear hbeyond
      · rw [hrefused] at hx
        cases hx
    refine .inr ⟨hwithin, ?_⟩
    rw [solveWith_of_checkPositive_eq_error hrefused]
    exact .error rfl

/-- Which values of the options are dealt with as announced. A tolerance passes as a positive and
    finite double, or is refused as unacceptable data, exactly if it is not too large a whole number
    for a double; a count passes as the whole number that it is, or is refused in that way, exactly
    if it is not a negative number of more digits than are written. For every source and right-hand
    side of a system, a request is answered with a solution or with a fault of the solvers exactly
    if it gives neither of these where its turn comes. -/
theorem faults_announced_iff {source : Source} {b : Option Datum}
    (hsystem : source.Makes b S) :
    (∀ (name : String) (d : Datum),
      ((∃ x, Options.checkPositive name d = .ok x ∧ x.isFinite = true ∧ 0.0 < x) ∨
        ∃ f, Options.checkPositive name d = .error f ∧ f.faultClass = .validation) ↔
      ¬ d.IsBeyondDoubles) ∧
    (∀ (name : String) (d : Datum),
      ((∃ n : Nat, d = .number (.whole n) ∧ Options.checkCount name d = .ok n) ∨
        ∃ f, Options.checkCount name d = .error f ∧ f.faultClass = .validation) ↔
      ¬ d.IsBeyondWriting) ∧
    ∀ (epsilon maxIterations : Datum) (check : Bool),
      ((∃ s, solve source b { epsilon, maxIterations, check := .bool check } = .ok s) ∨
        ∃ f, solve source b { epsilon, maxIterations, check := .bool check } = .error f ∧
          f.isSolverFault = true) ↔
      ¬ (epsilon.IsBeyondDoubles ∨
        (∃ x, Options.checkPositive "epsilon" epsilon = .ok x) ∧ maxIterations.IsBeyondWriting) := by
  refine ⟨?_, ?_, ?_⟩
  · intro name d
    rcases Options.checkPositive_cases name d with
      ⟨hbeyond, hescape⟩ | ⟨hnear, hpassed | ⟨cause, hrefused⟩⟩
    · simp [hbeyond, hescape, Fault.faultClass, Unreadable.faultClass]
    · exact iff_of_true (.inl hpassed) hnear
    · exact iff_of_true (.inr ⟨_, hrefused, rfl⟩) hnear
  · intro name d
    rcases Options.checkCount_cases name d with
      ⟨hlong, hescape⟩ | ⟨hshort, hpassed | ⟨cause, hrefused⟩⟩
    · simp [hlong, hescape, Fault.faultClass, Misuse.faultClass]
    · exact iff_of_true (.inl hpassed) hshort
    · exact iff_of_true (.inr ⟨_, hrefused, rfl⟩) hshort
  · intro epsilon maxIterations check
    rw [hsystem.solve_eq]
    rcases S.solveWith_cases_beyond (r := { epsilon, maxIterations, check := .bool check }) rfl rfl with
      ⟨hbeyond, f, hescape, hforeign⟩ | ⟨hwithin, hsettled⟩
    · refine iff_of_false ?_ (not_not_intro hbeyond)
      rw [hescape]
      rintro (⟨s, ⟨⟩⟩ | ⟨f', ⟨⟩, hown⟩)
      rw [hforeign] at hown
      cases hown
    · exact iff_of_true (hsettled.imp_left fun ⟨s, hs, _⟩ => ⟨s, hs⟩) hwithin

/-- The equation `3 x = 6` as a system. -/
def oneRow : System where
  n := 1
  n_pos := Nat.one_pos
  matrix := #v[#v[3]]
  rhs := #v[6]
  matrix_finite := by decide +kernel
  rhs_finite := by decide +kernel

/-- The matrix of the equation, as data. -/
def oneRowMatrix : Datum := .array (.ofTensor (.ofDense oneRow.matrix))

/-- The right-hand side of the equation, as data. -/
def oneRowRhs : Datum := .array (.ofTensor (.ofVector oneRow.rhs))

theorem makes_oneRow : Source.Makes (.matrix oneRowMatrix) (some oneRowRhs) oneRow := by
  refine .matrix (System.ofParts_eq_ok_iff.mpr ⟨?_, .inl ?_⟩)
  · exact ⟨_, rfl, Datum.reads_ofTensor _, Tensor.toDense_ofDense _⟩
  · exact ⟨_, rfl, Datum.reads_ofTensor _, Tensor.toVector_ofVector _⟩

/-- For this system, options that are no number and nothing are dealt with as announced. -/
theorem faults_announced_one_row :
    Source.Makes (.matrix oneRowMatrix) (some oneRowRhs) oneRow ∧
      ((∃ s, solve (.matrix oneRowMatrix) (some oneRowRhs)
          { epsilon := .number (.real (0.0 / 0.0)), maxIterations := .null,
            check := .bool false } = .ok s) ∨
        ∃ f, solve (.matrix oneRowMatrix) (some oneRowRhs)
          { epsilon := .number (.real (0.0 / 0.0)), maxIterations := .null,
            check := .bool false } = .error f ∧ f.isSolverFault = true) := by
  refine ⟨makes_oneRow, ((faults_announced_iff makes_oneRow).2.2 _ _ false).mpr ?_⟩
  rintro (⟨i, ⟨⟩, -⟩ | ⟨-, i, ⟨⟩, -⟩)

/-- The whole number `10 ^ 400` is too large for a double. As a tolerance it is neither taken nor
    refused: the fault that ends the call is none of the solvers. -/
theorem solve_escapes_of_large_tolerance :
    Source.Makes (.matrix oneRowMatrix) (some oneRowRhs) oneRow ∧
      Options.checkPositive "epsilon" (.number (.whole (10 ^ 400))) =
        .error (.unreadable .beyondDoubles) ∧
      solve (.matrix oneRowMatrix) (some oneRowRhs) { epsilon := .number (.whole (10 ^ 400)) } =
        .error (.unreadable .beyondDoubles) ∧
      (Fault.unreadable .beyondDoubles).faultClass = .overflow ∧
      (Fault.unreadable .beyondDoubles).isSolverFault = false := by
  have hbeyond : (Datum.number (.whole (10 ^ 400))).IsBeyondDoubles := ⟨_, rfl, by decide +kernel⟩
  have hlarge : Options.checkPositive "epsilon" (.number (.whole (10 ^ 400))) =
      .error (.unreadable .beyondDoubles) := by
    rcases Options.checkPositive_cases "epsilon" (.number (.whole (10 ^ 400))) with
      ⟨-, hescape⟩ | ⟨hnear, -⟩
    · exact hescape
    · exact absurd hbeyond hnear
  refine ⟨makes_oneRow, hlarge, ?_, rfl, rfl⟩
  rw [makes_oneRow.solve_eq]
  exact System.solveWith_of_checkPositive_eq_error hlarge

end LinearSystems.Jacobi
