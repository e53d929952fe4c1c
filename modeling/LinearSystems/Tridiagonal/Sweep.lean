import LinearSystems.Dense

/-!
# The tridiagonal sweep

Row `i` of a tridiagonal system reads `lower[i] x[i-1] + diag[i] x[i] + upper[i] x[i+1] = rhs[i]`.
A forward sweep turns each row into `x[i] = beta[i] - alpha[i] x[i+1]`, and the unknowns follow from
the last to the first. The corners `lower[0]` and `upper[n-1]` stand for nothing and are not read.
-/

namespace LinearSystems.Tridiagonal

variable {α : Type u} [Scalar α]

/-- The three diagonals and the right-hand side of a system of `n` rows. -/
structure Band (α : Type u) (n : Nat) where
  lower : Vector α n
  diag : Vector α n
  upper : Vector α n
  rhs : Vector α n

/-- The coefficients of the swept rows. -/
structure Sweep (α : Type u) (n : Nat) where
  alpha : Vector α n
  beta : Vector α n

/-- A divisor of the sweep that is too small, with the row that needed it. -/
structure Breakdown (α : Type u) (n : Nat) where
  row : Fin n
  value : α

/-- The row before a row, if there is one. -/
def previous? {n : Nat} (i : Fin n) : Option (Fin n) :=
  if i.val = 0 then none else some ⟨i.val - 1, by omega⟩

/-- The row after a row, if there is one. -/
def following? {n : Nat} (i : Fin n) : Option (Fin n) :=
  if h : i.val + 1 < n then some ⟨i.val + 1, h⟩ else none

namespace Band

/-- What row `i` divides by, given the swept rows before it. -/
def divisor {n : Nat} (B : Band α n) (S : Sweep α n) (i : Fin n) : α :=
  match previous? i with
  | none => B.diag[i]
  | some p => B.diag[i] - B.lower[i] * S.alpha[p]

/-- What row `i` divides to get its constant, given the swept rows before it. -/
def constant {n : Nat} (B : Band α n) (S : Sweep α n) (i : Fin n) : α :=
  match previous? i with
  | none => B.rhs[i]
  | some p => B.rhs[i] - B.lower[i] * S.beta[p]

/-- Sweeps row `i`. The last row has no unknown after it, so its `alpha` stays zero. -/
def sweepRow {n : Nat} (threshold : α) (B : Band α n) (S : Sweep α n) (i : Fin n) :
    Except (Breakdown α n) (Sweep α n) :=
  let divisor := B.divisor S i
  if Scalar.isBelow threshold divisor then
    .error { row := i, value := divisor }
  else
    .ok
      { alpha := if i.val + 1 < n then S.alpha.set i (B.upper[i] / divisor) i.isLt else S.alpha
        beta := S.beta.set i (B.constant S i / divisor) i.isLt }

/-- The sweep after its first `k` rows. -/
def sweepRows {n : Nat} (threshold : α) (B : Band α n) :
    (k : Nat) → k ≤ n → Except (Breakdown α n) (Sweep α n)
  | 0, _ => .ok { alpha := Vector.replicate n 0, beta := Vector.replicate n 0 }
  | k + 1, h => do
    let S ← sweepRows threshold B k (Nat.le_of_succ_le h)
    B.sweepRow threshold S ⟨k, h⟩

/-- The whole sweep, or the first divisor that is too small. -/
def sweep {n : Nat} (threshold : α) (B : Band α n) : Except (Breakdown α n) (Sweep α n) :=
  B.sweepRows threshold n (Nat.le_refl n)

end Band

/-- The value of unknown `i`, given the unknowns after it. -/
def Sweep.solveRow {n : Nat} (S : Sweep α n) (i : Fin n) (x : Vector α n) : α :=
  match following? i with
  | none => S.beta[i]
  | some j => S.beta[i] - S.alpha[i] * x[j]

/-- The unknowns, from the last to the first. -/
def Sweep.backSubstitute {n : Nat} (S : Sweep α n) : Vector α n :=
  Fin.foldr n (fun i x => x.set i (S.solveRow i x) i.isLt) (Vector.replicate n 0)

namespace Band

/-- The coefficient matrix of the system: the three diagonals, each on a background of zeros, added
    from the main diagonal outwards. -/
def toDense {n : Nat} (B : Band α n) : Dense α n n :=
  Dense.ofFn fun i j =>
    (if i = j then B.diag[i] else 0)
      + (if i.val = j.val + 1 then B.lower[i] else 0)
      + (if i.val + 1 = j.val then B.upper[i] else 0)

/-- What is left of row `i` at a candidate `x`: the main diagonal less the right-hand side, then the
    neighbour before, then the neighbour after. -/
def residualAt {n : Nat} (B : Band α n) (x : Vector α n) (i : Fin n) : α :=
  let main := B.diag[i] * x[i] - B.rhs[i]
  let below := match previous? i with
    | none => main
    | some p => main + B.lower[i] * x[p]
  match following? i with
  | none => below
  | some j => below + B.upper[i] * x[j]

/-- The residual of every row. -/
def residual {n : Nat} (B : Band α n) (x : Vector α n) : Vector α n :=
  Vector.ofFn (B.residualAt x)

end Band

end LinearSystems.Tridiagonal
