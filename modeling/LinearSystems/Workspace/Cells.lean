import LinearSystems.Memory
import LinearSystems.Workspace.Prepared

/-!
# Systems and solutions in memory

The arrays of a prepared system lie in cells one after the other, from an origin on. Every array of
a solution lies in a cell of its own, and the solution knows the origin of its system. What a system
or a solution shows is read from these cells, so a write to a cell shows in everything that knows
its address. An array that does not fit where it is read leaves what was there before.
-/

namespace LinearSystems

namespace TypedArray

variable {m n : Nat}

/-- A vector of doubles as an array. -/
def ofVector (v : Vector Float n) : TypedArray :=
  ofTensor (Tensor.ofVector v)

/-- A matrix of doubles as an array. -/
def ofDense (A : Dense Float m n) : TypedArray :=
  ofTensor (Tensor.ofDense A)

/-- The unknowns of some columns as an array. -/
def ofColumns (columns : Vector Int n) : TypedArray where
  type := .integer true 64
  shape := [n]
  elements := columns.toList.map fun k => .number (.whole k)
  length_eq := by simp

/-- The array as a vector, in place of a vector of its length. -/
def vectorOr (a : TypedArray) (v : Vector Float n) : Vector Float n :=
  if h : a.toTensor.shape = [n] then a.toTensor.toVector n h else v

/-- The array as a matrix, in place of a matrix of its shape. -/
def denseOr (a : TypedArray) (A : Dense Float m n) : Dense Float m n :=
  if h : a.toTensor.shape = [m, n] then a.toTensor.toDense m n h else A

/-- The whole number of an element. -/
def wholeOf : Element → Int
  | .number (.whole k) => k
  | _ => 0

/-- The array as the unknowns of some columns, in place of as many. -/
def columnsOr (a : TypedArray) (columns : Vector Int n) : Vector Int n :=
  let ks := a.elements.map wholeOf
  if h : ks.length = n then ⟨ks.toArray, by simp [h]⟩ else columns

end TypedArray

/-- The system with other entries of the same shape, if they are finite. -/
def Jacobi.System.withEntries (S : System) (A : Dense Float S.n S.n) (b : Vector Float S.n) :
    System :=
  if h : (∀ i j : Fin S.n, A[i][j].isFinite = true) ∧ ∀ i : Fin S.n, b[i].isFinite = true then
    { S with matrix := A, rhs := b, matrix_finite := h.1, rhs_finite := h.2 }
  else S

/-- The system with other entries of the same length, if the corners that belong to no unknown are
    zero and all entries are finite. -/
def Tridiagonal.System.withBand (S : System) (B : Band Float S.n) : System :=
  have := S.n_pos
  if h : B.lower[0] = 0.0 ∧ B.upper[S.n - 1] = 0.0 ∧
      (∀ i : Fin S.n, B.lower[i].isFinite = true) ∧ (∀ i : Fin S.n, B.diag[i].isFinite = true) ∧
      (∀ i : Fin S.n, B.upper[i].isFinite = true) ∧ ∀ i : Fin S.n, B.rhs[i].isFinite = true then
    { S with
      band := B
      lower_first := h.1
      upper_last := h.2.1
      lower_finite := h.2.2.1
      diag_finite := h.2.2.2.1
      upper_finite := h.2.2.2.2.1
      rhs_finite := h.2.2.2.2.2 }
  else S

namespace Prepared

/-- The arrays of a system. -/
def arrays : Prepared → List TypedArray
  | .gauss E => [.ofDense E.augmented]
  | .jacobi S => [.ofDense S.matrix, .ofVector S.rhs]
  | .tridiagonal S =>
    [.ofVector S.band.lower, .ofVector S.band.diag, .ofVector S.band.upper, .ofVector S.band.rhs]

/-- The system with its arrays read anew. -/
def withArrays (P : Prepared) (arrays : List TypedArray) : Prepared :=
  match P, arrays with
  | .gauss E, [M] => .gauss { E with augmented := M.denseOr E.augmented }
  | .jacobi S, [A, b] => .jacobi (S.withEntries (A.denseOr S.matrix) (b.vectorOr S.rhs))
  | .tridiagonal S, [c, d, e, b] =>
    .tridiagonal (S.withBand {
      lower := c.vectorOr S.band.lower
      diag := d.vectorOr S.band.diag
      upper := e.vectorOr S.band.upper
      rhs := b.vectorOr S.band.rhs })
  | P, _ => P

/-- The system as its cells from an origin on hold it. -/
def loaded (P : Prepared) (m : Memory) (origin : Nat) : Prepared :=
  P.withArrays (m.readAll origin P.arrays.length)

end Prepared

/-- An array that a solution keeps for itself. -/
inductive Part where
  | unknowns
  | columns
  | residual
  | alpha
  | beta
  deriving DecidableEq, Repr

namespace Solution

/-- The system that a solution belongs to. -/
def system : Solution → Prepared
  | .gauss S => .gauss S.equations
  | .jacobi S => .jacobi S.system
  | .tridiagonal S => .tridiagonal S.system

/-- The solution of a system whose arrays have changed since. What was computed stays. -/
def withSystem (S : Solution) (P : Prepared) : Solution :=
  match S, P with
  | .gauss S, .gauss E =>
    if h : E.n = S.equations.n then .gauss (S.withAugmented (h ▸ E.augmented)) else .gauss S
  | .jacobi S, .jacobi T =>
    if h : T.n = S.system.n then
      .jacobi { S with system := T, result := h ▸ S.result, x := h ▸ S.x }
    else .jacobi S
  | .tridiagonal S, .tridiagonal T =>
    if h : T.n = S.system.n then
      .tridiagonal { system := T, result := h ▸ S.result, params := h ▸ S.params }
    else .tridiagonal S
  | S, _ => S

/-- The arrays that a solution keeps for itself. -/
def parts : Solution → List (Part × TypedArray)
  | .gauss S =>
    (.unknowns, .ofVector S.x) ::
      ((S.columns.map fun columns => (.columns, .ofColumns columns)).toList
        ++ (S.kept.map fun r => (.residual, .ofVector r)).toList)
  | .jacobi S => [(.unknowns, .ofVector S.x)]
  | .tridiagonal S =>
    [(.unknowns, .ofVector S.params.x), (.alpha, .ofVector S.params.alpha),
      (.beta, .ofVector S.params.beta)]

/-- The solution with one of its arrays read anew. -/
def withPart (S : Solution) (part : Part) (a : TypedArray) : Solution :=
  match S, part with
  | .gauss S, .unknowns => .gauss { S with x := a.vectorOr S.x }
  | .gauss S, .columns => .gauss { S with columns := S.columns.map a.columnsOr }
  | .gauss S, .residual => .gauss { S with kept := S.kept.map a.vectorOr }
  | .jacobi S, .unknowns => .jacobi { S with x := a.vectorOr S.x }
  | .tridiagonal S, .unknowns =>
    .tridiagonal { S with params := { S.params with x := a.vectorOr S.params.x } }
  | .tridiagonal S, .alpha =>
    .tridiagonal { S with params := { S.params with alpha := a.vectorOr S.params.alpha } }
  | .tridiagonal S, .beta =>
    .tridiagonal { S with params := { S.params with beta := a.vectorOr S.params.beta } }
  | S, _ => S

/-- The solution as cells hold it: those of its system from an origin on, and those of its own
    arrays. -/
def loaded (S : Solution) (m : Memory) (origin : Nat) (places : List (Part × Nat)) : Solution :=
  places.foldl (fun S place => S.withPart place.1 (m.read place.2))
    (S.withSystem (S.system.loaded m origin))

end Solution

namespace Memory

/-- Puts arrays into the cells that they have, or into new ones, and tells which these are. -/
def save (m : Memory) (places : List (Part × Nat)) :
    List (Part × TypedArray) → Memory × List (Part × Nat)
  | [] => (m, [])
  | (part, v) :: rest =>
    match places.lookup part with
    | some a =>
      let (m, saved) := (m.write a v).save places rest
      (m, (part, a) :: saved)
    | none =>
      let (m', a) := m.allocate v
      let (m', saved) := m'.save places rest
      (m', (part, a) :: saved)

end Memory

/-- The matrix that elimination leaves behind, whether it comes to its end or not. -/
def Gauss.worked {n : Nat} (mode : Pivoting) (threshold : Float) (M : Dense Float n (n + 1)) :
    Dense Float n (n + 1) :=
  match eliminate mode threshold M with
  | .ok P => P.matrix
  | .error b => b.progress.matrix

namespace Gauss.Equations

/-- Solves equations in memory. The elimination works on a copy of the matrix, in its place. -/
def runIn (E : Equations) (m : Memory) (mode : Pivoting) :
    Memory × Except Fault (Result (Params E.n)) :=
  let (m, copy) := m.allocate (.ofDense E.augmented)
  let M := (m.read copy).denseOr E.augmented
  (m.write copy (.ofDense (worked mode pivotThreshold M)), run { E with augmented := M } mode)

/-- Solves equations in memory with the chosen backend, with complete pivoting if it is asked
    for. -/
def solveIn (E : Equations) (m : Memory) (usePivot backend : Datum) :
    Memory × Except Fault Solution :=
  match Options.checkBackend backend, Pivoting.ofRequest usePivot with
  | .error f, _ => (m, .error f)
  | .ok _, .error f => (m, .error f)
  | .ok _, .ok mode =>
    let (m, outcome) := E.runIn m mode
    (m, outcome.map fun result => {
      equations := E
      mode
      result
      x := result.params.x
      columns := result.params.columns
      kept := none })

end Gauss.Equations

namespace Prepared

/-- Solves a prepared system in memory. -/
def solveIn (P : Prepared) (m : Memory) (options : SolveOptions) : Memory × Except Fault Solution :=
  match P with
  | .gauss E =>
    let (m, outcome) := E.solveIn m options.usePivot options.request.backend
    (m, outcome.map .gauss)
  | P => (m, P.solve options)

/-- Calls the backend of a prepared system in memory. -/
def runBackendIn (P : Prepared) (m : Memory) (options : BackendOptions) :
    Memory × Except Fault BackendResult :=
  match P, options.gauss with
  | .gauss _, .error f => (m, .error f)
  | .gauss E, .ok mode =>
    let (m, outcome) := E.runIn m mode
    (m, outcome.map (.gauss E.n))
  | P, _ => (m, P.runBackend options)

end Prepared

end LinearSystems
