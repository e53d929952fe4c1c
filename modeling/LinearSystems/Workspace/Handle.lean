import LinearSystems.Workspace.KeptSolution

/-!
# Arrays in a caller's hands

A caller makes arrays, and is handed arrays by systems and solutions: to look at only, as a copy to
work on, or as the array that a solution shows. An array in hand is a cell, a view of what lies in
it, and whether it takes writes.
-/

namespace LinearSystems

/-- Which part of a cell an array shows: all of it, or the coefficients or the right-hand side of an
    augmented matrix. -/
inductive View where
  | whole
  | coefficients
  | rightHandSide
  deriving DecidableEq, Repr

/-- What a view of an array shows. -/
def View.of (v : View) (a : TypedArray) : TypedArray :=
  match h : a.toTensor.shape with
  | [n, k] =>
    if hk : k = n + 1 then
      let M : Dense Float n (n + 1) := a.toTensor.toDense n (n + 1) (hk ▸ h)
      match v with
      | .whole => a
      | .coefficients => .ofDense M.coefficients
      | .rightHandSide => .ofVector M.rightHandSide
    else a
  | _ => a

/-- An array in a caller's hands. -/
structure Handle where
  address : Nat
  view : View := .whole
  writable : Bool := true

/-- What a caller asks for: a copy to work on, the dense matrix of three diagonals, or the array
    under a member. -/
inductive Handout where
  | workingCopy
  | dense
  | member (name : Datum)

/-- What a caller hands over: data, or an array in hand. -/
inductive Supply where
  | given (d : Datum)
  | inHand (name : Datum)

namespace Prepared

/-- Where a system shows an array: the number of its cell, and the view. -/
def exposed : Prepared → List (String × Nat × View)
  | .gauss _ =>
    [("augmented", 0, .whole), ("A", 0, .coefficients), ("b", 0, .rightHandSide),
      (keptMatrix, 0, .whole)]
  | .jacobi _ => [("A", 0, .whole), ("b", 1, .whole), ("_A", 0, .whole), ("_b", 1, .whole)]
  | .tridiagonal _ =>
    [("c", 0, .whole), ("d", 1, .whole), ("e", 2, .whole), ("b", 3, .whole), ("_c", 0, .whole),
      ("_d", 1, .whole), ("_e", 2, .whole), ("_b", 3, .whole)]

/-- The array under a member of a system that has its cells from an origin on. -/
def handle (P : Prepared) (origin : Nat) (member : String) : Except Fault Handle :=
  match P.exposed.lookup member with
  | some (k, view) =>
    .ok { address := origin + k, view, writable := P.members.lookup member == some .array }
  | none => .error (P.lacks member)

/-- What a system hands out, and the memory afterwards. -/
def handOut (P : Prepared) (m : Memory) (origin : Nat) (what : Handout) :
    Memory × Except Fault Handle :=
  match what, P with
  | .workingCopy, .gauss E =>
    let (m, address) := m.allocate (.ofDense E.augmented)
    (m, .ok { address })
  | .workingCopy, P => (m, .error (P.lacks "working_copy"))
  | .dense, .tridiagonal S =>
    let (m, address) := m.allocate (.ofDense S.toDense)
    (m, .ok { address })
  | .dense, P => (m, .error (P.lacks "to_dense"))
  | .member name, P => (m, do P.handle origin (← name.memberName))

end Prepared

namespace KeptSolution

/-- The array that a solution keeps under a member. -/
def partOf : String → Option Part
  | "x" => some .unknowns
  | "column_permutation" => some .columns
  | "residual" => some .residual
  | "alpha" => some .alpha
  | "beta" => some .beta
  | _ => none

/-- The array under a member of a solution. A residual that is not kept is handed out as it is now
    and not known any more; one that was assigned is not handed out. -/
def handle (K : KeptSolution) (m : Memory) (member : String) : Memory × Except Fault Handle :=
  if member = Solution.residualMember ∧ K.givenResidual?.isSome then
    (m, .error (K.solution.lacks member))
  else
    match (partOf member).bind fun part => K.places.lookup part with
    | some address => (m, .ok { address })
    | none =>
      if member = Solution.residualMember then
        let (m, address) := m.allocate (.ofVector ⟨K.solution.residual.toArray, rfl⟩)
        (m, .ok { address })
      else (m, .error (K.solution.lacks member))

/-- Asks a solution for an array: the solution afterwards, and the member that has the array. -/
def ask (K : KeptSolution) (what : Handout) : KeptSolution × Except Fault String :=
  match what with
  | .workingCopy => (K, .error (K.solution.lacks "working_copy"))
  | .dense => (K, .error (K.solution.lacks "to_dense"))
  | .member name =>
    match name.memberName with
    | .error f => (K, .error f)
    | .ok member =>
      match K.solution.members.lookup member with
      | none => (K, .error (K.solution.lacks member))
      | some (_, source) =>
        let (K, outcome) := K.checkSource source
        (K, outcome.map fun _ => member)

end KeptSolution

end LinearSystems
