import LinearSystems.Dense

/-!
# Arrays of numbers

An array has a shape, which is the list of its dimensions, and its entries row by row. The count of
entries belongs to the type, so an array of shape `[m, n]` can be read as a matrix without a further
test.
-/

namespace LinearSystems

/-- The count of entries that a shape asks for. -/
def volume (shape : List Nat) : Nat :=
  shape.foldr (· * ·) 1

@[simp]
theorem volume_nil : volume [] = 1 := rfl

@[simp]
theorem volume_cons (n : Nat) (shape : List Nat) : volume (n :: shape) = n * volume shape := rfl

theorem volume_append (shape rest : List Nat) :
    volume (shape ++ rest) = volume shape * volume rest := by
  induction shape with
  | nil => simp
  | cons d shape ih => simp [ih, Nat.mul_assoc]

theorem volume_append_singleton (shape : List Nat) (n : Nat) :
    volume (shape ++ [n]) = volume shape * n := by
  simp [volume_append]

/-- A shape as text: the dimensions in parentheses, with a comma after a single one. -/
def shapeText : List Nat → String
  | [] => "()"
  | [n] => "(" ++ toString n ++ ",)"
  | shape => "(" ++ ", ".intercalate (shape.map toString) ++ ")"

/-- A shape as text without spaces. -/
def narrowShapeText : List Nat → String
  | [] => "()"
  | [n] => "(" ++ toString n ++ ",)"
  | shape => "(" ++ ",".intercalate (shape.map toString) ++ ")"

/-- An array of doubles. -/
structure Tensor where
  shape : List Nat
  entries : Array Float
  size_eq : entries.size = volume shape

namespace Tensor

/-- The greatest count of dimensions. -/
def maxRank : Nat := 64

/-- The array of a shape whose entries are all zero. -/
def zeros (shape : List Nat) : Tensor where
  shape := shape
  entries := Array.replicate (volume shape) 0.0
  size_eq := by simp

/-- The place of the entry in row `i` and column `j` of a matrix of `n` columns. -/
theorem offset_lt {m n : Nat} {t : Tensor} (h : t.shape = [m, n]) (i : Fin m) (j : Fin n) :
    i.val * n + j.val < t.entries.size := by
  have hsize : t.entries.size = m * n := by simp [t.size_eq, h]
  have hrow : (i.val + 1) * n ≤ m * n := Nat.mul_le_mul_right n i.isLt
  have hcol := j.isLt
  rw [Nat.succ_mul] at hrow
  omega

/-- An array of shape `[m, n]` as a matrix. -/
def toDense (t : Tensor) (m n : Nat) (h : t.shape = [m, n]) : Dense Float m n :=
  Dense.ofFn fun i j =>
    have := offset_lt h i j
    t.entries[i.val * n + j.val]

/-- An array of shape `[n]` as a vector. -/
def toVector (t : Tensor) (n : Nat) (h : t.shape = [n]) : Vector Float n :=
  ⟨t.entries, by simp [t.size_eq, h]⟩

/-- An array of one column as a single dimension; any other array as it is. -/
def flattenColumn (t : Tensor) : Tensor :=
  match h : t.shape with
  | [n, 1] => { shape := [n], entries := t.entries, size_eq := by simp [t.size_eq, h] }
  | _ => t

/-- A matrix as an array. -/
def ofDense {m n : Nat} (A : Dense Float m n) : Tensor where
  shape := [m, n]
  entries := (A.map (·.toArray)).toArray.flatten
  size_eq := by
    simp only [Array.size_flatten, volume_cons, volume_nil, Nat.mul_one]
    have : (A.map (·.toArray)).toArray.map Array.size = Array.replicate m n := by
      apply Array.ext <;> simp
    rw [this]
    simp

/-- A vector as an array. -/
def ofVector {n : Nat} (v : Vector Float n) : Tensor where
  shape := [n]
  entries := v.toArray
  size_eq := by simp

/-- Every entry of the matrix is an entry of the array. -/
theorem toDense_mem {t : Tensor} {m n : Nat} (h : t.shape = [m, n]) (i : Fin m) (j : Fin n) :
    (t.toDense m n h)[i][j] ∈ t.entries := by
  simp [toDense, Dense.ofFn]

/-- Every entry of the vector is an entry of the array. -/
theorem toVector_mem {t : Tensor} {n : Nat} (h : t.shape = [n]) (i : Fin n) :
    (t.toVector n h)[i] ∈ t.entries := by
  simp [toVector]

end Tensor

end LinearSystems
