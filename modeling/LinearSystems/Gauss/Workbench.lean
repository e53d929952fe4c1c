import LinearSystems.Arguments
import LinearSystems.Comparison
import LinearSystems.Datum.Sum
import LinearSystems.Gauss.Solution
import LinearSystems.Selection.Assignment
import LinearSystems.Tensor.Operations

/-!
# Elimination by hand

A workbench holds an array, the unknowns of its columns and the last answer, and takes single
operations of the elimination on them, in any order. Nothing is checked: the array may have any
shape, its entries may be of any kind, and a place is whatever can be taken as one. A failed
operation leaves what it had done until then.
-/

namespace LinearSystems.Gauss

/-- The single operations. -/
inductive Command where
  | eliminateBelow (i : Datum)
  | swapRows (a b : Datum)
  | swapColumns (a b : Datum)
  | findLargest (i : Datum)
  | eliminate (mode : Pivoting)
  | backSubstitute
  | unpermute (v : Option Datum)

namespace Command

/-- An operation that does not get as many arguments as it takes. -/
def miscalled (operation : String) (names : List String) (given : Nat) : Except Fault Command := do
  checkArguments operation names [] given
  return .backSubstitute

/-- The operation of a name with its arguments beside the array, and beside the permutation, which
    comes last. -/
def named (name : String) (arguments : List Datum) : Except Fault Command :=
  match name, arguments with
  | "eliminate_below", [i] => .ok (.eliminateBelow i)
  | "eliminate_below", given => miscalled name ["M", "i"] (given.length + 1)
  | "swap_rows", [a, b] => .ok (.swapRows a b)
  | "swap_rows", given => miscalled name ["M", "r1", "r2"] (given.length + 1)
  | "swap_columns", [a, b] => .ok (.swapColumns a b)
  | "swap_columns", given => miscalled name ["M", "c1", "c2", "permutation"] (given.length + 2)
  | "find_complete_pivot", [i] => .ok (.findLargest i)
  | "find_complete_pivot", given => miscalled name ["M", "i"] (given.length + 1)
  | "forward_eliminate", _ => .ok (.eliminate .diagonal)
  | "forward_eliminate_complete_pivot", _ => .ok (.eliminate .complete)
  | "back_substitute", _ => .ok .backSubstitute
  | "unpermute", given => .ok (.unpermute given.head?)
  | name, _ => .error (.misuse (.unknownKey (.text name)))

end Command

/-- What an operation answers. -/
inductive Answer where
  | nothing
  | place (row column : Datum)
  | values (t : Tensor)

/-- The unknowns of some columns before any exchange. -/
def identity (n : Nat) : TypedArray where
  type := .integer true 64
  shape := [n]
  elements := (List.range n).map fun k : Nat => .number (.whole k)
  length_eq := by simp

/-- The state of a workbench. -/
structure Workbench where
  matrix : Tensor
  permutation : TypedArray
  answer : Option Tensor := none

namespace Workbench

/-- The count of rows. -/
def rowCount (W : Workbench) : Except Fault Nat :=
  match W.matrix.shape with
  | [] => .error (.misuse .noDimension)
  | n :: _ => .ok n

/-- Puts an array on a workbench, with the unknowns of its columns; these are in their own order if
    none are given. -/
def ofData (matrix : Datum) (permutation : Option Datum) : Except Fault Workbench := do
  let matrix ← Tensor.coerce matrix
  match permutation, matrix.shape with
  | some d, _ =>
    match Tensor.nesting d with
    | .ok N => return { matrix, permutation := ← TypedArray.ofElements (.integer true 64) N }
    | .error defect => throw (.unreadable (.notArray defect))
  | none, n :: _ => return { matrix, permutation := identity n }
  | none, [] => throw (.misuse .noDimension)

/-- A number as a place. -/
def numeral (i : Nat) : Datum := .number (.whole i)

/-- Gives a value to a part of the array. -/
def withPart (W : Workbench) (places : List Place) (part : Tensor) : Except Fault Workbench :=
  match W.matrix.assign places (.array (.ofTensor part)) with
  | (matrix, .ok ()) => .ok { W with matrix }
  | (_, .error f) => .error f

/-- Gives a value to a part of the permutation. -/
def withColumns (W : Workbench) (place : Place) (part : TypedArray) : Except Fault Workbench :=
  match W.permutation.assign [place] (.array part) with
  | (permutation, .ok ()) => .ok { W with permutation }
  | (_, .error f) => .error f

/-- Two places as they are and exchanged. -/
def exchanged (a b : Datum) : Except Fault (Place × Place) := do
  return (← Place.ofDatum (.list [a, b]), ← Place.ofDatum (.list [b, a]))

/-- Exchanges two rows; equal places are not looked at. -/
def swapRows (W : Workbench) (a b : Datum) : Except Fault Workbench := do
  if !(← a.differs b) then
    return W
  let (target, source) ← exchanged a b
  W.withPart [target, .all] (← W.matrix.select [source, .all])

/-- Exchanges two columns in every row. -/
def swapMatrixColumns (W : Workbench) (a b : Datum) : Except Fault Workbench := do
  let (target, source) ← exchanged a b
  W.withPart [.all, target] (← W.matrix.select [.all, source])

/-- Exchanges two entries of the permutation. -/
def swapPermutation (W : Workbench) (a b : Datum) : Except Fault Workbench := do
  let (target, source) ← exchanged a b
  W.withColumns target (← W.permutation.select [source])

/-- Goes on after what may have failed without changing anything. -/
def andThen {α β : Type} (W : Workbench) (first : Except Fault α)
    (next : α → Workbench × Except Fault β) : Workbench × Except Fault β :=
  match first with
  | .ok a => next a
  | .error f => (W, .error f)

/-- The end of an operation that changes the workbench only if it does not fail. -/
def finish {β : Type} (W : Workbench) (outcome : Except Fault (Workbench × β)) :
    Workbench × Except Fault β :=
  match outcome with
  | .ok (W, b) => (W, .ok b)
  | .error f => (W, .error f)

/-- Exchanges two columns, and after them their entries in the permutation; equal places are not
    looked at. -/
def swapColumns (W : Workbench) (a b : Datum) : Workbench × Except Fault Unit :=
  W.andThen (a.differs b) fun differ =>
    if differ then
      W.andThen (W.swapMatrixColumns a b) fun W =>
        W.finish ((W.swapPermutation a b).map fun W => (W, ()))
    else (W, .ok ())

/-- Eliminates below a row: from the rows after it the multiples of the row are subtracted that its
    pivot gives. -/
def eliminateBelow (W : Workbench) (i : Datum) : Except Fault Workbench := do
  let here ← Place.ofDatum i
  let pivot ← W.matrix.select [here, here]
  let below := Place.range (← Place.bound (← i.plus .left 1)) none
  let factors ← (← W.matrix.select [below, here]).zipWith (· / ·) pivot
  let right := Place.range (← Place.bound i) none
  let block ← W.matrix.select [below, right]
  W.withPart [below, right] (← block.less (factors.outer (← W.matrix.select [here, right])))

/-- The place of the largest magnitude in an array of two dimensions. -/
def largestPlace (t : Tensor) : Except Fault (Nat × Nat) :=
  if t.entries.isEmpty then .error (.misuse .emptySearch)
  else
    match t.shape with
    | [_, w] =>
      let k := firstLargest (fun k => Scalar.abs (t.entries.getD k 0.0)) 0
        (List.range t.entries.size)
      .ok (k / w, k % w)
    | _ => .error (.misuse .manyDimensions)

/-- The largest coefficient of the block that starts at a place on the diagonal. Its place is
    counted the way the place on the diagonal was. -/
def findLargest (W : Workbench) (i : Datum) : Except Fault (Datum × Datum) := do
  let n ← W.rowCount
  let start ← Place.bound i
  let (r, c) ← largestPlace (← W.matrix.select [.range start none, .range start (some n)])
  return (← i.plus .left r, ← i.plus .left c)

/-- Moves the chosen pivot of step `i` to the diagonal. -/
def arrange (mode : Pivoting) (W : Workbench) (i : Nat) : Workbench × Except Fault Unit :=
  match mode with
  | .diagonal => (W, .ok ())
  | .complete =>
    W.andThen (W.findLargest (numeral i)) fun (r, c) =>
      W.andThen (W.swapRows (numeral i) r) fun W => W.swapColumns (numeral i) c

/-- The pivot of step `i`, which has to be a number that is large enough to divide by. -/
def pivot (mode : Pivoting) (W : Workbench) (i : Nat) : Except Fault Float := do
  let v ← W.matrix.select [.entry i, .entry i]
  v.checkDivisor pivotThreshold fun v => .smallDivisor (mode.smallDivisor i) v pivotThreshold
  v.soleEntry .noScalar

/-- One step of the elimination, with the pivot it used. -/
def step (mode : Pivoting) (W : Workbench) (i : Nat) : Workbench × Except Fault Float :=
  match W.arrange mode i with
  | (W, .error f) => (W, .error f)
  | (W, .ok ()) =>
    W.finish do
      let v ← W.pivot mode i
      return (← W.eliminateBelow (numeral i), v)

/-- The steps from step `i` on, with the pivots they used. -/
def steps (mode : Pivoting) (W : Workbench) (i : Nat) :
    (count : Nat) → Workbench × Except Fault (List Float)
  | 0 => (W, .ok [])
  | count + 1 =>
    match W.step mode i with
    | (W, .error f) => (W, .error f)
    | (W, .ok v) =>
      let (W, rest) := W.steps mode (i + 1) count
      (W, rest.map (v :: ·))

/-- The whole elimination. With complete pivoting it starts a permutation of its own, which takes
    the place of the old one if no step fails. -/
def eliminate (mode : Pivoting) (W : Workbench) : Workbench × Except Fault (List Float) :=
  W.andThen W.rowCount fun n =>
    let start := match mode with
      | .diagonal => W
      | .complete => { W with permutation := identity n }
    match start.steps mode 0 n with
    | (W', .ok pivots) => (W', .ok pivots)
    | (W', .error f) => ({ W' with permutation := W.permutation }, .error f)

/-- The value of unknown `i` of `n`, given the unknowns after it. -/
def solveRow (W : Workbench) (n i : Nat) (later : List Float) : Except Fault Float := do
  let part ← W.matrix.select [.entry i, .range (some (i + 1 : Nat)) (some n)]
  let known ← part.timesVector later.toArray
  let rest ← (← W.matrix.select [.entry i, .entry n]).zipWith (· - ·) known
  (← rest.zipWith (· / ·) (← W.matrix.select [.entry i, .entry i])).stored

/-- The unknowns from the first on, given those after the first `count` ones. -/
def solveRows (W : Workbench) (n : Nat) : (count : Nat) → (later : List Float) →
    Except Fault (List Float)
  | 0, later => .ok later
  | count + 1, later => do
    W.solveRows n count ((← W.solveRow n count later) :: later)

/-- Solves the triangular system whose right-hand side is the column after the coefficients. -/
def backSubstitute (W : Workbench) : Except Fault (List Float) := do
  let n ← W.rowCount
  W.solveRows n n []

/-- A list of numbers as an array. -/
def vectorOf (xs : List Float) : Tensor :=
  .ofVector ⟨xs.toArray, rfl⟩

/-- Gives the given values, or else those of the last answer, to the places that the permutation
    names. -/
def placed (W : Workbench) (given : Option Datum) : Except Fault Tensor := do
  let values ← match given, W.answer with
    | some d, _ => Tensor.coerce d
    | none, some t => pure t
    | none, none => throw (.misuse (.tooManyIndices 0 1))
  let place ← Place.ofArray .noPlaces W.permutation
  match values.assign [place] (.array (.ofTensor values)) with
  | (t, .ok ()) => return t
  | (_, .error f) => throw f

/-- Takes one operation. -/
def run (W : Workbench) : Command → Workbench × Except Fault Answer
  | .eliminateBelow i => W.finish ((W.eliminateBelow i).map fun W => (W, .nothing))
  | .swapRows a b => W.finish ((W.swapRows a b).map fun W => (W, .nothing))
  | .swapColumns a b =>
    let (W, outcome) := W.swapColumns a b
    (W, outcome.map fun _ => .nothing)
  | .findLargest i => (W, (W.findLargest i).map fun (r, c) => .place r c)
  | .eliminate mode =>
    let (W, outcome) := W.eliminate mode
    (W, outcome.map fun pivots => .values (vectorOf pivots))
  | .backSubstitute =>
    W.finish (W.backSubstitute.map fun x =>
      ({ W with answer := some (vectorOf x) }, .values (vectorOf x)))
  | .unpermute given => (W, (W.placed given).map .values)

end Workbench

end LinearSystems.Gauss
