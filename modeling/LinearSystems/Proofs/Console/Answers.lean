import LinearSystems.Proofs.Console.Questions
import LinearSystems.Proofs.Jacobi.Refusals
import LinearSystems.Proofs.Settles
import LinearSystems.Proofs.Tensor.Rows

/-!
# What a call is answered

A call for a system of some size is answered with as many unknowns, or with a fault that a solver
raises on purpose: the lists are arrays of the right shape, so data is refused only for its entries,
and the options are numbers that the checks can deal with.
-/

namespace LinearSystems

theorem Gauss.Equations.settles_solveWith (E : Gauss.Equations) (complete : Bool) :
    Settles (fun s => s.equations.n = E.n)
      (E.solveWith (.bool complete) Options.defaultBackend) := by
  have hrun (mode : Pivoting) : Settles (fun _ => True) (E.run mode) := by
    rw [run]
    split
    · exact .error rfl
    · exact .ok trivial
  exact (hrun _).bind fun result _ => .ok rfl

theorem Tridiagonal.System.settles_solveWith (S : Tridiagonal.System) :
    Settles (fun s => s.system.n = S.n) (S.solveWith Options.defaultBackend) := by
  have hrun : Settles (fun _ => True) S.run := by
    rw [run]
    split
    · exact .error rfl
    · exact .ok trivial
  exact hrun.bind fun result _ => .ok rfl

theorem Jacobi.System.settles_solveWith (S : Jacobi.System) (epsilon : Float) (m : Nat)
    (check : Bool) :
    Settles (fun s => s.system.n = S.n) (S.solveWith {
      epsilon := .number (.real epsilon), maxIterations := .number (.whole (m : Int)),
      check := .bool check }) := by
  rcases S.solveWith_cases_beyond (r := {
      epsilon := .number (.real epsilon), maxIterations := .number (.whole (m : Int)),
      check := .bool check }) rfl rfl with ⟨hbeyond | ⟨-, hlong⟩, -⟩ | ⟨-, hsettled⟩
  · obtain ⟨i, ⟨⟩, -⟩ := hbeyond
  · obtain ⟨i, ⟨⟩, hnegative, -⟩ := hlong
    exact absurd hnegative (Int.not_lt.mpr (Int.natCast_nonneg m))
  · exact hsettled.imp fun s hs => congrArg System.n hs

namespace Console

variable {n : Nat}

/-- Rows of a system of some size make a system of that size, or are refused. -/
theorem settles_ofAugmented (hn : 0 < n) {rows : List (List Float)} (hlength : rows.length = n)
    (hwidth : ∀ row ∈ rows, row.length = n + 1) :
    Settles (fun S => S.n = n) (Gauss.System.ofAugmented (.ofRows rows)) := by
  refine .of_onlyRefuses (Gauss.System.onlyRefuses_ofAugmented _) fun S h => ?_
  obtain ⟨t, hshape, hreads, -⟩ := Gauss.System.ofAugmented_eq_ok_iff.mp h
  rw [Datum.shape_of_reads_ofRows (hlength ▸ hn) (Nat.succ_pos _) hwidth hreads] at hshape
  exact (List.cons.inj hshape).1.symm.trans hlength

theorem settles_ofParts (hn : 0 < n) {A : List (List Float)} (b : Datum) (hlength : A.length = n)
    (hwidth : ∀ row ∈ A, row.length = n) :
    Settles (fun S => S.n = n) (Jacobi.System.ofParts (.ofRows A) b) := by
  refine .of_onlyRefuses (Jacobi.System.onlyRefuses_ofParts _ _) fun S h => ?_
  obtain ⟨t, hshape, hreads, -⟩ := (Jacobi.System.ofParts_eq_ok_iff.mp h).1
  rw [Datum.shape_of_reads_ofRows (hlength ▸ hn) hn hwidth hreads] at hshape
  exact (List.cons.inj hshape).1.symm.trans hlength

theorem settles_ofDiagonals (hn : 0 < n) (c e b : Datum) {d : List Float} (hlength : d.length = n) :
    Settles (fun S => S.n = n) (Tridiagonal.System.ofDiagonals c (.ofFloats d) e b) := by
  refine .of_onlyRefuses (Tridiagonal.System.onlyRefuses_ofDiagonals _ _ _ _) fun S h => ?_
  obtain ⟨-, -, -, ⟨t, hshape, hreads, -⟩, -⟩ := Tridiagonal.System.ofDiagonals_eq_ok_iff.mp h
  rw [Datum.shape_of_reads_ofFloats (hlength ▸ hn) hreads] at hshape
  exact (List.cons.inj hshape).1.symm.trans hlength

/-- Every call for a system of a size is answered with as many unknowns, or with a fault of the
    solvers. -/
theorem Call.settles_answer (c : Call) (hn : 0 < n) (h : c.OfSize n) :
    Settles (fun a => a.x.length = n) c.answer := by
  cases c with
  | gauss rows complete =>
    refine (settles_ofAugmented hn h.1 h.2).bind fun S hS => ?_
    refine (S.toEquations.settles_solveWith complete).bind fun s hs => ?_
    exact .ok (s.x.length_toList.trans (hs.trans hS))
  | jacobi A b epsilon maxIterations check =>
    have hsolve : Settles (fun s : Jacobi.Solution => s.system.n = n)
        (Jacobi.solve (.matrix (.ofRows A)) (some (.ofFloats b)) {
          epsilon := .number (.real epsilon)
          maxIterations := .number (.whole maxIterations)
          check := .bool check }) := by
      refine (settles_ofParts hn (.ofFloats b) h.1 h.2.1).bind fun S hS => ?_
      rw [← hS]
      exact S.settles_solveWith epsilon maxIterations check
    exact hsolve.bind fun s hs => .ok (s.x.length_toList.trans hs)
  | thomas c d e b =>
    have hsolve : Settles (fun s : Tridiagonal.Solution => s.system.n = n)
        (Tridiagonal.solve (.lower (.ofFloats c)) (some (.ofFloats d)) (some (.ofFloats e))
          (some (.ofFloats b)) Options.defaultBackend) := by
      refine (settles_ofDiagonals hn (.ofFloats c) (.ofFloats e) (.ofFloats b) h.2.1).bind
        fun S hS => ?_
      rw [← hS]
      exact S.settles_solveWith
    exact hsolve.bind fun s hs => .ok (s.params.x.length_toList.trans hs)

end Console

end LinearSystems
