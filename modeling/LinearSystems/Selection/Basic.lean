import LinearSystems.Index
import LinearSystems.Selection.Place
import LinearSystems.Tensor.Entrywise

/-!
# Selections

A selection is a part of an array, described axis by axis. Ranges and new axes are dimensions of the
part. Lists of entries and choices are taken together: their shapes meet in one shape, which stands
where they stood if they and single entries were neighbours, and in front of the other dimensions if
not. A single entry takes no dimension at all.

A selection leads from the coordinates in the part to a place in the storage of the array. What a
list names is looked at last, and not at all where nothing is selected.
-/

namespace LinearSystems

/-- What a selection does with one axis, or between two. -/
inductive Piece where
  | entry (axis place : Nat)
  | range (axis start count : Nat)
  | newAxis
  | choice (taken : Bool)
  | named (axis : Nat) (shape : List Nat) (entries : Array Int)
  deriving DecidableEq, Repr

namespace Piece

/-- The length of the dimension that a piece has by itself. -/
def ownLength? : Piece → Option Nat
  | .range _ _ count => some count
  | .newAxis => some 1
  | _ => none

/-- The shape of a list of entries. A choice is a list of one entry or of none. -/
def listShape? : Piece → Option (List Nat)
  | .choice taken => some [if taken then 1 else 0]
  | .named _ shape _ => some shape
  | _ => none

/-- Whether a piece is taken together with lists of entries. -/
def isGathered (p : Piece) : Bool :=
  p.ownLength?.isNone

end Piece

/-- A part of an array of a shape. -/
structure Selection (shape : List Nat) where
  pieces : List Piece

namespace Selection

variable {shape : List Nat}

/-- The coordinates of what a mask marks, along one of its dimensions. -/
def markedAlong (dimension : Nat) (maskShape : List Nat) (marks : List Bool) : List Int :=
  (marks.zipIdx.filter fun (marked, _) => marked).map fun (_, k) =>
    (((coordinates maskShape k)[dimension]?.getD 0 : Nat) : Int)

/-- The pieces of a mask, one for each of its dimensions. -/
def maskPieces (axis : Nat) (maskShape : List Nat) (marks : List Bool) : List Piece :=
  (List.range maskShape.length).map fun d =>
    let entries := markedAlong d maskShape marks
    .named (axis + d) [entries.length] entries.toArray

/-- The range of an axis of a size between two ends. -/
def rangeOf (axis size : Nat) (start stop : Option Int) : Piece :=
  let first := (start.map fun i => Index.rangeStart i size).getD 0
  let last := (stop.map fun i => Index.rangeStart i size).getD size
  .range axis first (last - first)

/-- The pieces of some places from an axis on. Axes that no place is left for are taken whole. -/
def layOut (shape : List Nat) : (axis : Nat) → List Place → Except Fault (List Piece)
  | axis, [] =>
    .ok ((List.range (shape.length - axis)).map fun k =>
      .range (axis + k) 0 (shape.getD (axis + k) 0))
  | axis, .newAxis :: rest => do return .newAxis :: (← layOut shape axis rest)
  | axis, .choice taken :: rest => do return .choice taken :: (← layOut shape axis rest)
  | axis, .entry i :: rest => do
    let k ← Index.resolve i axis (shape.getD axis 0)
    return .entry axis k :: (← layOut shape (axis + 1) rest)
  | axis, .range start stop :: rest => do
    return rangeOf axis (shape.getD axis 0) start stop :: (← layOut shape (axis + 1) rest)
  | axis, .named listShape entries :: rest => do
    return .named axis listShape entries.toArray :: (← layOut shape (axis + 1) rest)
  | axis, .mask maskShape marks :: rest => do
    return maskPieces axis maskShape marks ++ (← layOut shape (axis + maskShape.length) rest)

/-- A mask has to be as long along each dimension as the axis that it stands for, unless it is empty
    along it. -/
def checkMask (shape : List Nat) (axis : Nat) (maskShape : List Nat) : Except Fault Unit :=
  maskShape.zipIdx.forM fun (found, d) =>
    let size := shape.getD (axis + d) 0
    if found = 0 ∨ found = size then .ok ()
    else .error (.misuse (.choiceLength (axis + d) size found))

/-- Checks the masks among some places from an axis on. -/
def checkMasks (shape : List Nat) : (axis : Nat) → List Place → Except Fault Unit
  | _, [] => .ok ()
  | axis, .mask maskShape _ :: rest => do
    checkMask shape axis maskShape
    checkMasks shape (axis + maskShape.length) rest
  | axis, p :: rest => checkMasks shape (axis + p.axes) rest

/-- The most places that are taken at once. -/
def maxPlaces : Nat := 2 * Tensor.maxRank

/-- The dimensions that the lists among some places have. -/
def listRank (places : List Place) : Nat :=
  (places.map fun p =>
    match p with
    | .choice _ => 1
    | .mask _ _ => 1
    | .named listShape _ => listShape.length
    | _ => 0).foldl max 0

/-- The part of an array of a shape that some places name. -/
def ofPlaces (shape : List Nat) (places : List Place) : Except Fault (Selection shape) := do
  if maxPlaces < places.length then
    throw (.misuse .tooManyPlaces)
  let used := (places.map Place.axes).foldl (· + ·) 0
  if shape.length < used then
    throw (.misuse (.tooManyIndices shape.length used))
  let rank := (places.map Place.ownDimensions).foldl (· + ·) (shape.length - used)
    + listRank places
  if Tensor.maxRank < rank then
    throw (.misuse (.tooManyAxes Tensor.maxRank rank))
  checkMasks shape 0 places
  return { pieces := ← layOut shape 0 places }

/-- Whether lists of entries or choices are among the pieces. -/
def hasLists (S : Selection shape) : Bool :=
  S.pieces.any fun p => p.listShape?.isSome

/-- Whether a single entry is selected, without any dimension. -/
def isEntry (S : Selection shape) : Bool :=
  S.pieces.all fun p => p matches .entry ..

/-- The shape in which the lists of entries meet. -/
def listShape (S : Selection shape) : Except Fault (List Nat) :=
  let shapes := S.pieces.filterMap Piece.listShape?
  match shapes.foldlM commonShape? [] with
  | some common => .ok common
  | none => .error (.misuse (.unmatchedPlaces shapes))

/-- The dimensions that pieces have by themselves. -/
def ownShape (S : Selection shape) : List Nat :=
  S.pieces.filterMap Piece.ownLength?

/-- How many dimensions of their own pieces have in front of the lists of entries. -/
def leading (S : Selection shape) : Nat :=
  let before := S.pieces.takeWhile fun p => !p.isGathered
  let after := S.pieces.dropWhile fun p => !p.isGathered
  if (after.dropWhile Piece.isGathered).any Piece.isGathered then 0 else before.length

/-- The shape of what is selected, where the lists of entries meet in a shape. -/
def resultShape (S : Selection shape) (listShape : List Nat) : List Nat :=
  S.ownShape.take S.leading ++ listShape ++ S.ownShape.drop S.leading

/-- Every entry that a list names is there. Where the lists are without entries nothing is looked
    at. -/
def checkNamed (S : Selection shape) (listShape : List Nat) : Except Fault Unit :=
  if volume listShape = 0 then .ok ()
  else
    S.pieces.forM fun p =>
      match p with
      | .named axis _ entries => entries.forM fun i => do
        let _ ← Index.resolve i axis (shape.getD axis 0)
      | _ => .ok ()

/-- The place in the storage of an array that coordinates among the lists and in the other
    dimensions lead to. -/
def storagePlace (shape : List Nat) (list : List Nat) : List Piece → (own : List Nat) → Nat
  | [], _ => 0
  | p :: rest, own =>
    let stride := fun axis => volume (shape.drop (axis + 1))
    match p with
    | .entry axis k => k * stride axis + storagePlace shape list rest own
    | .range axis start _ =>
      (start + own.headD 0) * stride axis + storagePlace shape list rest (own.drop 1)
    | .newAxis => storagePlace shape list rest (own.drop 1)
    | .choice _ => storagePlace shape list rest own
    | .named axis listShape entries =>
      let i := entries.getD (placeOf (padded list.length listShape) list) 0
      let k := ((Index.resolve? i (shape.getD axis 0)).map Fin.val).getD 0
      k * stride axis + storagePlace shape list rest own

/-- The places in the storage of what is selected, row by row. -/
def storagePlaces (S : Selection shape) (listShape : List Nat) : List Nat :=
  let result := S.resultShape listShape
  let n := S.leading
  (List.range (volume result)).map fun k =>
    let there := coordinates result k
    storagePlace shape ((there.drop n).take listShape.length) S.pieces
      (there.take n ++ there.drop (n + listShape.length))

/-- What is selected of an array: its shape, and its places in the storage. -/
def resolve (S : Selection shape) : Except Fault (List Nat × List Nat) := do
  let listShape ← S.listShape
  S.checkNamed listShape
  return (S.resultShape listShape, S.storagePlaces listShape)

end Selection

namespace Tensor

/-- A part of an array by itself. -/
def select (t : Tensor) (places : List Place) : Except Fault Tensor := do
  let (shape, storage) ← (← Selection.ofPlaces t.shape places).resolve
  let storage := storage.toArray
  return {
    shape
    entries := Array.ofFn fun k : Fin (volume shape) =>
      (storage[k.val]?.bind fun i => t.entries[i]?).getD 0.0
    size_eq := by simp }

end Tensor

/-- A part of an array of a known type by itself. -/
def TypedArray.select (a : TypedArray) (places : List Place) : Except Fault TypedArray := do
  let (shape, storage) ← (← Selection.ofPlaces a.shape places).resolve
  let storage := storage.toArray
  let elements := a.elements.toArray
  return {
    type := a.type
    shape
    elements := List.ofFn fun k : Fin (volume shape) =>
      (storage[k.val]?.bind fun i => elements[i]?).getD (.truth false)
    length_eq := by simp }

end LinearSystems
