import LinearSystems.Tensor.Check

/-!
# Arrays entry by entry

Two arrays are combined entry by entry. Their shapes are compared from the last dimension on, and an
axis of length one stands for an axis of any length, on which its only entry repeats; dimensions
that one of the arrays lacks count as such axes. The main statement is that the coordinates of a
place lead back to it, so arrays of one shape are combined place by place.
-/

namespace LinearSystems

/-- The coordinates of a place in a shape. -/
def coordinates : (shape : List Nat) → (place : Nat) → List Nat
  | [], _ => []
  | _ :: rest, i => (i / volume rest) :: coordinates rest (i % volume rest)

/-- The place of some coordinates in a shape. An axis of length one has one place only. -/
def placeOf : (shape coordinates : List Nat) → Nat
  | n :: rest, c :: cs => (if n = 1 then 0 else c) * volume rest + placeOf rest cs
  | _, _ => 0

/-- The coordinates of a place lead back to it. -/
theorem placeOf_coordinates {shape : List Nat} {i : Nat} (h : i < volume shape) :
    placeOf shape (coordinates shape i) = i := by
  induction shape generalizing i with
  | nil =>
    rw [volume_nil] at h
    simp only [placeOf]
    omega
  | cons n rest ih =>
    rw [volume_cons] at h
    have hpos : 0 < volume rest := by
      rcases Nat.eq_zero_or_pos (volume rest) with h0 | h0
      · simp [h0] at h
      · exact h0
    rw [coordinates, placeOf, ih (Nat.mod_lt i hpos)]
    split
    · next hn =>
      subst hn
      rw [Nat.one_mul] at h
      simp [Nat.mod_eq_of_lt h]
    · rw [Nat.mul_comm, Nat.div_add_mod]

/-- A shape with axes of length one in front, up to a count of dimensions. -/
def padded (rank : Nat) (shape : List Nat) : List Nat :=
  List.replicate (rank - shape.length) 1 ++ shape

/-- The elements that go to the places of a shape, row by row, where those of an array repeat along
    its axes of length one and along the axes that it lacks. -/
def spreadOver {α : Type} (shape target : List Nat) (elements : Array α) : List α :=
  (List.range (volume target)).filterMap fun k =>
    elements[placeOf (padded target.length shape) (coordinates target k)]?

/-- The length of an axis on which two lengths meet. -/
def commonLength? (m n : Nat) : Option Nat :=
  if m = n then some m else if m = 1 then some n else if n = 1 then some m else none

/-- The shape in which two shapes meet. -/
def commonShape? (s t : List Nat) : Option (List Nat) :=
  let rank := max s.length t.length
  ((padded rank s).zip (padded rank t)).mapM fun (m, n) => commonLength? m n

namespace Tensor

/-- The entry that an array has at some coordinates of a larger shape. -/
def entryAt (t : Tensor) (coordinates : List Nat) : Float :=
  t.entries.getD (placeOf (padded coordinates.length t.shape) coordinates) 0.0

/-- Combines two arrays entry by entry. -/
def zipWith (f : Float → Float → Float) (t u : Tensor) : Except Fault Tensor :=
  match commonShape? t.shape u.shape with
  | none => .error (.misuse (.unmatched [t.shape, u.shape]))
  | some shape => .ok {
      shape
      entries := Array.ofFn fun i : Fin (volume shape) =>
        f (t.entryAt (coordinates shape i)) (u.entryAt (coordinates shape i))
      size_eq := by simp }

/-- The array with an axis of length one after its first axis. -/
def spread (t : Tensor) : Tensor :=
  match h : t.shape with
  | [] => t
  | n :: rest => { t with shape := n :: 1 :: rest, size_eq := by simp [t.size_eq, h] }

/-- The diagonal of a matrix, or the matrix that has a vector on its diagonal. -/
def diagonal (t : Tensor) : Except Fault Tensor :=
  match t.shape with
  | [m, n] => .ok {
      shape := [min m n]
      entries := Array.ofFn fun i : Fin (min m n) => t.entries.getD (i.val * n + i.val) 0.0
      size_eq := by simp }
  | [n] => .ok {
      shape := [n, n]
      entries := Array.ofFn fun i : Fin (n * n) =>
        if i.val / n = i.val % n then t.entries.getD (i.val / n) 0.0 else 0.0
      size_eq := by simp }
  | _ => .error (.misuse .noDiagonal)

/-- Whether all coordinates are equal. -/
def onDiagonal : List Nat → Bool
  | [] => true
  | c :: cs => cs.all (· == c)

/-- The array with zero wherever all coordinates are equal. An array of more than two dimensions has
    a diagonal only if all its axes have one length. -/
def clearDiagonal (t : Tensor) : Except Fault Tensor :=
  if 2 < t.shape.length ∧ !onDiagonal t.shape then .error (.misuse .unequalAxes)
  else .ok { t with
    entries := t.entries.mapIdx fun i x => if onDiagonal (coordinates t.shape i) then 0.0 else x
    size_eq := by simp [t.size_eq] }

end Tensor

end LinearSystems
