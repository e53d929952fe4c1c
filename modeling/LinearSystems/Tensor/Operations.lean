import LinearSystems.Selection.Basic
import LinearSystems.Tensor.Entrywise

/-!
# Arrays as operands

What the kernels do with arrays whose shape is not known: a row of an array, an entry that a row
has to be, the test of a divisor, and two products. A divisor is tested before it is used, so one of
several entries, which has no single answer to the test, goes no further.
-/

namespace LinearSystems.Tensor

/-- A row of an array. -/
def row (t : Tensor) (i : Int) : Except Fault Tensor :=
  t.select [.entry i]

/-- The only entry of an array without dimensions; the fault is the one for any other array. -/
def soleEntry (other : Unreadable) (t : Tensor) : Except Fault Float :=
  match t.shape, t.entries[0]? with
  | [], some x => .ok x
  | _, _ => .error (.unreadable other)

/-- What is stored as one entry. -/
def stored (t : Tensor) : Except Fault Float :=
  t.soleEntry .sequence

/-- A divisor is not too small. The fault of a small one is given. -/
def checkDivisor (t : Tensor) (threshold : Float) (small : Float → Fault) : Except Fault Unit :=
  match t.entries.toList with
  | [] => .error (.unreadable .emptyTruth)
  | [v] =>
    if Scalar.isBelow threshold v then
      .error (if t.shape.isEmpty then small v else .unreadable (.noPlaces "numpy.ndarray"))
    else .ok ()
  | _ => .error (.unreadable .ambiguousTruth)

/-- The products of all entries of two arrays: a row for each entry of the first one. -/
def outer (t u : Tensor) : Tensor where
  shape := [t.entries.size, u.entries.size]
  entries := Array.ofFn fun k : Fin (t.entries.size * u.entries.size) =>
    t.entries.getD (k.val / u.entries.size) 0.0 * u.entries.getD (k.val % u.entries.size) 0.0
  size_eq := by simp

/-- The sums of the products of a vector with the entries along the last dimension of an array. -/
def timesVector (t : Tensor) (v : Array Float) : Except Fault Tensor :=
  match t.shape.getLast? with
  | none => .error (.misuse .noDimension)
  | some m =>
    if m ≠ v.size then .error (.misuse (.innerLength m v.size))
    else
      let shape := t.shape.dropLast
      .ok {
        shape
        entries := Array.ofFn fun i : Fin (volume shape) =>
          v.foldl (fun (s, k) x => (s + t.entries.getD k 0.0 * x, k + 1)) (0.0, i.val * m) |>.1
        size_eq := by simp }

/-- The differences of the entries of an array and those of another one, which has to take its shape
    on. -/
def less (t u : Tensor) : Except Fault Tensor :=
  match commonShape? t.shape u.shape with
  | some shape =>
    if shape = t.shape then t.zipWith (· - ·) u
    else .error (.misuse (.unfitResult t.shape shape))
  | none => .error (.misuse (.unmatched [t.shape, u.shape, t.shape]))

end LinearSystems.Tensor
