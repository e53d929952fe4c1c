import LinearSystems.Console.Dialogue
import LinearSystems.Gauss.Solution
import LinearSystems.Jacobi.Solution
import LinearSystems.Tridiagonal.Solution

/-!
# Calls of the solvers

What the interactive program hands to a solver once it has asked for everything, and what it says of
the answer: the remarks of the run, a heading, and the unknowns by their numbers.
-/

namespace LinearSystems.Console

/-- The methods that the program offers. -/
inductive Method where
  | gauss
  | jacobi
  | thomas
  deriving DecidableEq, Repr

/-- A call of a solver, with all that it is given. -/
inductive Call where
  /-- Elimination of an augmented matrix, with complete pivoting or without. -/
  | gauss (rows : List (List Float)) (complete : Bool)
  /-- Iteration of a matrix and a right-hand side. -/
  | jacobi (A : List (List Float)) (b : List Float) (epsilon : Float) (maxIterations : Nat)
    (check : Bool)
  /-- The sweep of three diagonals and a right-hand side, corners included. -/
  | thomas (c d e b : List Float)

/-- The method of a call. -/
def Call.method : Call → Method
  | .gauss .. => .gauss
  | .jacobi .. => .jacobi
  | .thomas .. => .thomas

/-- What a solver answers, as far as the program shows it. -/
structure Answer where
  remarks : List String
  x : List Float

/-- What the solver of a call answers. -/
def Call.answer : Call → Except Fault Answer
  | .gauss rows complete => do
    let S ← Gauss.System.ofAugmented (.ofRows rows)
    let solution ← S.solveWith (.bool complete) Options.defaultBackend
    return { remarks := [], x := solution.x.toList }
  | .jacobi A b epsilon maxIterations check => do
    let solution ← Jacobi.solve (.matrix (.ofRows A)) (some (.ofFloats b)) {
      epsilon := .number (.real epsilon)
      maxIterations := .number (.whole maxIterations)
      check := .bool check }
    return { remarks := solution.messages, x := solution.x.toList }
  | .thomas c d e b => do
    let solution ← Tridiagonal.solve (.lower (.ofFloats c)) (some (.ofFloats d))
      (some (.ofFloats e)) (some (.ofFloats b)) Options.defaultBackend
    return { remarks := [], x := solution.params.x.toList }

/-- The line above the unknowns. -/
def Method.heading : Method → String
  | .gauss => "\nSolution by Gaussian elimination:"
  | .jacobi => "\nSolution by Jacobi iteration:"
  | .thomas => "\nSolution of the tridiagonal system:"

/-- The number of the first unknown. -/
def Method.first : Method → Int
  | .gauss => 1
  | .jacobi => 1
  | .thomas => 0

/-- The lines that show an answer. -/
def Answer.lines (a : Answer) (m : Method) : List String :=
  a.remarks ++ m.heading :: Summary.unknowns m.first a.x

/-- Has a system solved and says the solution. -/
def Call.perform (c : Call) : Dialogue Unit := do
  .tellAll ((← .ofExcept c.answer).lines c.method)

end LinearSystems.Console
