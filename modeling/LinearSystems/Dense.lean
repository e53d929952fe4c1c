import LinearSystems.Scalar

/-!
# Dense vectors and matrices

Row-by-row storage with both dimensions in the type, the products and the maximum norm. A product
of two vectors is one running sum in index order that starts at zero and skips nothing, so its
rounding is fixed by the definition.
-/

namespace LinearSystems

/-- An entry is read at an index of the vector's own range, so nothing has to be shown for it. -/
instance readAt {α : Type u} {n : Nat} : GetElem (Vector α n) (Fin n) α fun _ _ => True where
  getElem v i _ := v.get i

/-- Such an entry is the one at the number of the index. -/
@[simp]
theorem getElem_fin {α : Type u} {n : Nat} (v : Vector α n) (i : Fin n) :
    v[i] = getElem v i.val i.isLt := rfl

/-- A matrix of `m` rows with `n` entries each. -/
abbrev Dense (α : Type u) (m n : Nat) : Type u := Vector (Vector α n) m

namespace Dense

variable {α : Type u}

/-- The matrix with the given entries. -/
def ofFn {m n : Nat} (f : Fin m → Fin n → α) : Dense α m n :=
  Vector.ofFn fun i => Vector.ofFn fun j => f i j

/-- Exchanges two rows. -/
def swapRows {m n : Nat} (M : Dense α m n) (a b : Fin m) : Dense α m n :=
  M.swap a b a.isLt b.isLt

/-- Exchanges two columns in every row. -/
def swapColumns {m n : Nat} (M : Dense α m n) (a b : Fin n) : Dense α m n :=
  M.map fun row => row.swap a b a.isLt b.isLt

/-- Replaces one entry. -/
def setEntry {m n : Nat} (M : Dense α m n) (i : Fin m) (j : Fin n) (v : α) : Dense α m n :=
  M.set i (M[i].set j v j.isLt) i.isLt

/-- A square matrix with one more column on its right. -/
def glue {n : Nat} (A : Dense α n n) (b : Vector α n) : Dense α n (n + 1) :=
  Vector.ofFn fun i => A[i].push b[i]

/-- The coefficients of an augmented matrix: all columns but the last. -/
def coefficients {n : Nat} (M : Dense α n (n + 1)) : Dense α n n :=
  M.map fun row => row.pop

/-- The right-hand side of an augmented matrix: its last column. -/
def rightHandSide {n : Nat} (M : Dense α n (n + 1)) : Vector α n :=
  M.map fun row => row.back

@[simp]
theorem getElem_ofFn {m n : Nat} (f : Fin m → Fin n → α) (i : Fin m) (j : Fin n) :
    (ofFn f)[i][j] = f i j := by
  simp [ofFn]

/-- The columns before the last one are those of the matrix. -/
theorem getElem_glue_castSucc {n : Nat} (A : Dense α n n) (b : Vector α n) (i j : Fin n) :
    (glue A b)[i][j.castSucc] = A[i][j] := by
  simp [glue]

/-- The last column is the vector. -/
theorem getElem_glue_last {n : Nat} (A : Dense α n n) (b : Vector α n) (i : Fin n) :
    (glue A b)[i][Fin.last n] = b[i] := by
  simp [glue]

/-- After an exchange each of the two rows stands in the place of the other. -/
theorem getElem_swapRows {m n : Nat} (M : Dense α m n) (a b i : Fin m) :
    (M.swapRows a b)[i] = if i = a then M[b] else if i = b then M[a] else M[i] := by
  simp [swapRows, Vector.getElem_swap, Fin.ext_iff]

/-- After an exchange each of the two columns stands in the place of the other. -/
theorem getElem_swapColumns {m n : Nat} (M : Dense α m n) (a b : Fin n) (i : Fin m) (j : Fin n) :
    (M.swapColumns a b)[i][j] = if j = a then M[i][b] else if j = b then M[i][a] else M[i][j] := by
  simp [swapColumns, Vector.getElem_swap, Fin.ext_iff]

theorem getElem_coefficients {n : Nat} (M : Dense α n (n + 1)) (i j : Fin n) :
    M.coefficients[i][j] = M[i][j.castSucc] := by
  simp [coefficients]

end Dense

namespace Dense

variable {α : Type u} [Scalar α]

/-- The running sum of the products of the entries, in index order from zero. -/
def dot {n : Nat} (u v : Vector α n) : α :=
  Fin.foldl n (fun s k => s + u[k] * v[k]) 0

/-- The product of a matrix and a vector: one running sum for each row. -/
def mulVec {m n : Nat} (A : Dense α m n) (x : Vector α n) : Vector α m :=
  A.map fun row => dot row x

/-- The largest magnitude among the entries, or the first entry that is not a number. -/
def maxAbs {n : Nat} (v : Vector α n) : α :=
  v.foldl (fun best x => Scalar.larger best (Scalar.abs x)) 0

/-- The entrywise difference. -/
def difference {n : Nat} (u v : Vector α n) : Vector α n :=
  Vector.zipWith (· - ·) u v

/-- What is left of `A x = b` at a candidate `x`: the product less the right-hand side. -/
def residual {n : Nat} (A : Dense α n n) (b x : Vector α n) : Vector α n :=
  difference (mulVec A x) b

end Dense

end LinearSystems
