import LinearSystems.Gauss.Solution
import LinearSystems.Jacobi.Solution
import LinearSystems.Tridiagonal.Solution
import LinearSystems.Workspace.Solution

/-!
# Prepared systems

A prepared system of one of the three kinds: how it is made, what it shows, and how it is solved,
either with checked options or by a direct call of its backend. The arrays that it shows refuse
every write, and what is handed out to be changed is a copy. Only the matrix that a system for
elimination keeps for itself takes writes, of entries of any kind.
-/

namespace LinearSystems

/-- A prepared system of one of the three kinds. -/
inductive Prepared where
  | gauss (E : Gauss.Equations)
  | jacobi (S : Jacobi.System)
  | tridiagonal (S : Tridiagonal.System)

/-- What a system is prepared from. -/
inductive BlueprintOf (σ : Type) where
  /-- An augmented matrix, for elimination. -/
  | augmented (M : σ)
  /-- A matrix and a right-hand side, for elimination. -/
  | parts (A b : σ)
  /-- A matrix and a right-hand side, for the iteration. -/
  | square (A b : σ)
  /-- Three diagonals and a right-hand side. -/
  | diagonals (lower diag upper rhs : σ)
  /-- A matrix of three diagonals and a right-hand side. -/
  | banded (A b : σ)

/-- The data that a system is prepared from. -/
abbrev Blueprint := BlueprintOf Datum

/-- Looks up what a system is prepared from. -/
def BlueprintOf.lookUp {σ : Type} (find : σ → Except Fault Datum) :
    BlueprintOf σ → Except Fault Blueprint
  | .augmented M => do return .augmented (← find M)
  | .parts A b => do return .parts (← find A) (← find b)
  | .square A b => do return .square (← find A) (← find b)
  | .diagonals c d e b => do return .diagonals (← find c) (← find d) (← find e) (← find b)
  | .banded A b => do return .banded (← find A) (← find b)

/-- Prepares a system. -/
def Blueprint.prepare : Blueprint → Except Fault Prepared
  | .augmented M => (Gauss.System.ofAugmented M).map fun S => .gauss S.toEquations
  | .parts A b => (Gauss.System.ofParts A b).map fun S => .gauss S.toEquations
  | .square A b => (Jacobi.System.ofParts A b).map .jacobi
  | .diagonals c d e b => (Tridiagonal.System.ofDiagonals c d e b).map .tridiagonal
  | .banded A b => (Tridiagonal.System.ofMatrix A b).map .tridiagonal

/-- What a backend computes for a prepared system. -/
inductive BackendResult where
  | gauss (n : Nat) (r : Result (Gauss.Params n))
  | jacobi (n : Nat) (r : Result (Jacobi.Params n))
  | tridiagonal (n : Nat) (r : Result (Tridiagonal.Params n))

/-- How a prepared system is to be solved. Each kind looks at its own options only. -/
structure SolveOptions where
  usePivot : Datum := .bool false
  request : Jacobi.Request := {}

namespace Prepared

/-- What a prepared system is called where it lacks a member. -/
def typeName : Prepared → String
  | .gauss _ => "GaussDesign"
  | .jacobi _ => "JacobiDesign"
  | .tridiagonal _ => "TridiagonalDesign"

/-- The matrix that a system for elimination keeps for itself. -/
def keptMatrix : String := "_augmented"

/-- The members of a prepared system. -/
def members (P : Prepared) : List (String × Member) :=
  let shown := match P with
    | .gauss _ =>
      [("augmented", .fixed), ("A", .fixed), ("b", .fixed), (keptMatrix, .array),
        ("from_augmented", .action), ("from_system", .action), ("working_copy", .action)]
    | .jacobi _ =>
      [("A", .fixed), ("b", .fixed), ("_A", .fixed), ("_b", .fixed), ("from_arrays", .action)]
    | .tridiagonal _ =>
      [("c", .fixed), ("d", .fixed), ("e", .fixed), ("b", .fixed), ("_c", .fixed),
        ("_d", .fixed), ("_e", .fixed), ("_b", .fixed), ("from_arrays", .action),
        ("from_matrix", .action), ("to_dense", .action)]
  shown ++ [("n", .plain "int"), ("_n", .plain "int")] ++ Member.general

/-- A member that a prepared system lacks. -/
def lacks (P : Prepared) (member : String) : Fault :=
  .misuse (.noMember P.typeName member)

/-- Writes to the matrix that a system for elimination keeps for itself. -/
def writeMatrix (E : Gauss.Equations) (places : List Place) (value : Datum) :
    Gauss.Equations × Except Fault Unit :=
  let (M, outcome) := Dense.assign E.augmented places value
  ({ E with augmented := M }, outcome)

/-- Writes to a member of a prepared system. -/
def write (P : Prepared) (member : String) (places value : Datum) :
    Prepared × Except Fault Unit :=
  match P.members.lookup member, places.several with
  | none, _ => (P, .error (P.lacks member))
  | some _, .error f => (P, .error f)
  | some m, .ok places =>
    match m, P with
    | .array, .gauss E =>
      let (E, outcome) := Place.reading E places fun places => writeMatrix E places value
      (.gauss E, outcome)
    | m, P => (P, m.checkWrite places)

/-- A copy of the matrix of a system for elimination, with its first entry replaced. -/
def workingCopy (P : Prepared) (value : Datum) : Except Fault (List (List Float)) :=
  match P with
  | .gauss E => do
    let v ← value.double
    let changed := E.augmented.setEntry ⟨0, E.n_pos⟩ 0 v
    return (changed.toList.map fun row => row.toList)
  | _ => .error (P.lacks "working_copy")

/-- Solves a prepared system. -/
def solve (P : Prepared) (options : SolveOptions) : Except Fault Solution :=
  match P with
  | .gauss E => (E.solveWith options.usePivot options.request.backend).map .gauss
  | .jacobi S => (S.solveWith options.request).map .jacobi
  | .tridiagonal S => (S.solveWith options.request.backend).map .tridiagonal

end Prepared

/-- The options of a backend that is called directly, as far as they are given. -/
structure BackendOptions where
  pivoting : Option Datum := none
  epsilon : Option Datum := none
  maxIterations : Option Datum := none
  check : Option Datum := none

namespace BackendOptions

/-- The names of the settings that are given. -/
def settingNames (o : BackendOptions) : List String :=
  ([("epsilon", o.epsilon), ("max_iterations", o.maxIterations),
    ("check_convergence", o.check)].filter fun (_, given) => given.isSome).map (·.1)

/-- A backend without settings takes none of them. -/
def refuseSettings (o : BackendOptions) (owner : String) : Except Fault Unit :=
  match o.settingNames with
  | [] => .ok ()
  | name :: _ => .error (.misuse (.unexpectedArgument owner "solve" name))

/-- A backend that does not pivot is made without arguments. -/
def refusePivoting (o : BackendOptions) (owner : String) : Except Fault Unit :=
  if o.pivoting.isSome then .error (.misuse (.noArguments owner)) else .ok ()

/-- The options of elimination: a way of pivoting. -/
def gauss (o : BackendOptions) : Except Fault Gauss.Pivoting := do
  let mode ← Gauss.Pivoting.ofDatum (o.pivoting.getD (.text Gauss.Pivoting.diagonal.name))
  o.refuseSettings "CPUGaussBackend"
  return mode

/-- The options of the iteration: its settings, which are not looked at. -/
def jacobi (o : BackendOptions) : Except Fault Jacobi.Settings := do
  o.refusePivoting "CPUJacobiBackend"
  return {
    epsilon := o.epsilon.getD Jacobi.Settings.standard.epsilon
    maxIterations := o.maxIterations.getD Jacobi.Settings.standard.maxIterations
    check := o.check.getD Jacobi.Settings.standard.check }

/-- The options of the sweep: none. -/
def tridiagonal (o : BackendOptions) : Except Fault Unit := do
  o.refusePivoting "CPUThomasBackend"
  o.refuseSettings "CPUThomasBackend"

end BackendOptions

/-- Calls the backend of a prepared system. -/
def Prepared.runBackend (P : Prepared) (options : BackendOptions) : Except Fault BackendResult :=
  match P with
  | .gauss E => do return .gauss E.n (← E.run (← options.gauss))
  | .jacobi S => do return .jacobi S.n (← S.run (← options.jacobi))
  | .tridiagonal S => do
    options.tridiagonal
    return .tridiagonal S.n (← S.run)

/-- A call of a backend on a solution: it takes the options, and then misses what it reads first of
    a prepared system. -/
def Solution.runBackend (S : Solution) (options : BackendOptions) : Except Fault BackendResult :=
  match S with
  | .gauss _ => do
    let _ ← options.gauss
    throw (S.lacks "working_copy")
  | .jacobi _ => do
    let _ ← options.jacobi
    throw (S.lacks "A")
  | .tridiagonal _ => do
    options.tridiagonal
    throw (S.lacks "c")

end LinearSystems
