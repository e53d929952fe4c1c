import LinearSystems.Datum.Truth
import LinearSystems.Tensor.Conversion

/-!
# Checks on arrays

Each check tests one thing and, when it passes, hands on what it has learned as a proof about the
shape or the entries. A check that reads a dimension which the array does not have is a misuse; the
systems are built so that this does not happen.
-/

namespace LinearSystems

namespace Tensor

/-- The array has the required count of dimensions. -/
def checkRank (required : Int) (t : Tensor) (name : String) :
    Except Fault (PLift ((t.shape.length : Int) = required)) :=
  if h : (t.shape.length : Int) = required then .ok ⟨h⟩
  else .error (.mismatch (.rank name (.number (.whole required)) t.shape))

/-- The array has as many dimensions as a datum says. -/
def checkRankOf (required : Datum) (t : Tensor) (name : String) : Except Fault Unit := do
  if !(← required.isCount t.shape.length) then
    throw (.mismatch (.rank name required t.shape))

/-- The length of an array of one dimension. -/
def vectorLength (t : Tensor) (h : t.shape.length = 1) : { n : Nat // t.shape = [n] } :=
  ⟨t.shape[0], by
    obtain ⟨n, hn⟩ := List.length_eq_one_iff.1 h
    simp [hn]⟩

theorem eq_pair_of_length {shape : List Nat} (h : shape.length = 2) :
    shape = [shape[0], shape[1]] :=
  match shape, h with
  | [_, _], _ => rfl

/-- The dimensions of an array of two. -/
def matrixDimensions (t : Tensor) (h : t.shape.length = 2) :
    { p : Nat × Nat // t.shape = [p.1, p.2] } :=
  ⟨(t.shape[0], t.shape[1]), eq_pair_of_length h⟩

/-- The array is a vector; its length. -/
def checkVector (t : Tensor) (name : String) : Except Fault { n : Nat // t.shape = [n] } :=
  (checkRank 1 t name).map fun h => t.vectorLength (by have := h.down; omega)

/-- The array is a matrix; its dimensions. -/
def checkMatrix (t : Tensor) (name : String) :
    Except Fault { p : Nat × Nat // t.shape = [p.1, p.2] } :=
  (checkRank 2 t name).map fun h => t.matrixDimensions (by have := h.down; omega)

/-- The array has at least one row; the count of rows. -/
def checkNonempty (t : Tensor) (name : String) :
    Except Fault { n : Nat // 0 < n ∧ t.shape.head? = some n } :=
  match t.shape with
  | [] => .error (.misuse .noDimension)
  | 0 :: _ => .error (.mismatch (.empty name))
  | (n + 1) :: _ => .ok ⟨n + 1, Nat.succ_pos n, rfl⟩

/-- An array has a row where the check found one. -/
theorem rows_pos {t : Tensor} {m n : Nat} {rest : List Nat} (hpos : 0 < m)
    (hhead : t.shape.head? = some m) (hshape : t.shape = n :: rest) : 0 < n := by
  rw [hshape, List.head?_cons, Option.some.injEq] at hhead
  exact hhead ▸ hpos

/-- The two dimensions of a matrix. -/
def dimensions (t : Tensor) : Except Fault { p : Nat × Nat // t.shape = [p.1, p.2] } :=
  match t.shape with
  | [m, n] => .ok ⟨(m, n), rfl⟩
  | [] => .error (.misuse (.fewDimensions 0))
  | [_] => .error (.misuse (.fewDimensions 1))
  | _ => .error (.misuse .manyDimensions)

/-- The matrix is square; its order. -/
def checkSquare (t : Tensor) (name : String) : Except Fault { n : Nat // t.shape = [n, n] } := do
  let ⟨(m, n), h⟩ ← t.dimensions
  if hsquare : m = n then return ⟨m, by rw [h, ← hsquare]⟩
  else throw (.mismatch (.notSquare name t.shape))

/-- The matrix has one more column than rows; the count of rows. -/
def checkAugmented (t : Tensor) (name : String) :
    Except Fault { n : Nat // t.shape = [n, n + 1] } := do
  let ⟨(m, n), h⟩ ← t.dimensions
  if haugmented : n = m + 1 then return ⟨m, by rw [h, ← haugmented]⟩
  else throw (.mismatch (.notAugmented name t.shape))

/-- All entries are finite. -/
def checkFinite (t : Tensor) (name : String) :
    Except Fault (PLift (∀ x ∈ t.entries, x.isFinite = true)) :=
  if h : ∀ x ∈ t.entries, x.isFinite = true then .ok ⟨h⟩
  else
    .error (.invalid (.notFinite name (t.entries.toList.countP (·.isNaN))
      (t.entries.toList.countP (·.isInf))))

/-- The first dimension of the first of some arrays. -/
def leadingLength? (arrays : List Tensor) : Option Nat :=
  arrays.head?.bind fun t => t.shape.head?

/-- The arrays agree in their first dimension. -/
def SameLength (arrays : List Tensor) : Prop :=
  ∀ t ∈ arrays, t.shape.head? = leadingLength? arrays

instance (arrays : List Tensor) : Decidable (SameLength arrays) :=
  inferInstanceAs (Decidable (∀ t ∈ arrays, t.shape.head? = leadingLength? arrays))

theorem SameLength.eq {arrays : List Tensor} (h : SameLength arrays) {t u : Tensor}
    {m n : Nat} {restT restU : List Nat} (ht : t ∈ arrays) (hu : u ∈ arrays)
    (hm : t.shape = m :: restT) (hn : u.shape = n :: restU) : m = n := by
  have heq := (h t ht).trans (h u hu).symm
  rw [hm, hn, List.head?_cons, List.head?_cons] at heq
  exact Option.some.inj heq

/-- A right-hand side as long as a square matrix has the order of the matrix. -/
theorem SameLength.shape_eq {A b : Tensor} {m n : Nat} (h : SameLength [A, b])
    (hb : b.shape = [m]) (hA : A.shape = [n, n]) : b.shape = [n] := by
  rw [hb, h.eq (by simp) (by simp) hb hA]

/-- The arrays have one length, as far as there are at least two. -/
def checkLengths (arrays : List Tensor) (names : List String) :
    Except Fault (PLift (SameLength arrays)) :=
  if arrays.length ≠ names.length then
    .error (.misuse (.nameCount arrays.length names.length))
  else if 2 ≤ arrays.length ∧ arrays.any (fun t => t.shape.isEmpty) then
    .error (.misuse .noDimension)
  else if h : SameLength arrays then
    .ok ⟨h⟩
  else
    .error (.mismatch (.lengths (names.zip (arrays.map fun t => t.shape.headD 0))))

end Tensor

end LinearSystems
