import LinearSystems.Datum.Reading

/-!
# From data to arrays

Nested lists become an array if they are uniform: at every depth either all elements are lists of
one length, or none is a list. The shape is taken from the outermost lists inwards; an array in a
list brings its own shape with it, to the end, while a list without elements ends the nesting.

Data is taken in two ways. As a system it has to hold real numbers: once the shape is known, the
types of all elements are joined, and only a type of real numbers is taken, so truth values are
taken among numbers but not alone. As it comes, every element is read as a double by itself.
-/

namespace LinearSystems

namespace Datum

/-- The parts of an array of arbitrary data along its first dimension. -/
def objectParts (n : Nat) (rest : List Nat) (items : List Datum) : List Datum :=
  (List.range n).map fun i => .objects rest ((items.drop (i * volume rest)).take (volume rest))

/-- The elements of a list or the parts of an array; none for a single element. -/
def parts? : Datum → Option (List Datum)
  | .list items => some items
  | .array a => a.parts?.map fun parts => parts.map .array
  | .objects (n :: rest) items => some (objectParts n rest items)
  | _ => none

/-- The elements of a list or the parts of an array; nothing for a single element. -/
def parts (d : Datum) : List Datum :=
  d.parts?.getD []

/-- Whether the datum is a single element. -/
def isSingle (d : Datum) : Bool :=
  d.parts?.isNone

/-- The shape of an array. -/
def arrayShape? : Datum → Option (List Nat)
  | .array a => some a.shape
  | .objects shape _ => some shape
  | _ => none

/-- The type of a single element. -/
def singleType : Datum → ElementType
  | .bool _ => .truth
  | .number (.whole i) =>
    if -Int.pow 2 63 ≤ i ∧ i < Int.pow 2 63 then .integer true 64
    else if 0 ≤ i ∧ i < Int.pow 2 64 then .integer false 64
    else .object
  | .number (.real _) => .real 64
  | .text s => .text s.length
  | .array a => a.type
  | _ => .object

mutual

/-- The types of the elements of a datum, in their order. An array has one, however many elements it
    has. -/
def elementTypes : Datum → List ElementType
  | .list items => listElementTypes items
  | d => [d.singleType]

/-- The types of the elements of some data, in their order. -/
def listElementTypes : List Datum → List ElementType
  | [] => []
  | item :: rest => elementTypes item ++ listElementTypes rest

end

/-- The type of an array of all elements of a datum. -/
def elementType (d : Datum) : ElementType :=
  .joinAll d.elementTypes

/-- The double that an element stands for. -/
def elementValue : Datum → Float
  | .bool b => if b then 1.0 else 0.0
  | .number (.whole i) => Float.ofInt i
  | .number (.real x) => x
  | .array a => (a.elements.head?.map Element.toFloat).getD 0.0
  | _ => 0.0

end Datum

namespace Tensor

/-- A uniform nesting: its shape and its elements row by row. -/
structure Nesting where
  shape : List Nat
  leaves : List Datum
  length_eq : leaves.length = volume shape

/-- Whether all data are lists of one length. -/
def allOfLength (n : Nat) (items : List Datum) : Bool :=
  items.all fun d => d.parts?.map List.length == some n

/-- Lists of one length hold as many elements as their count times that length. -/
theorem length_flatMap_parts {n : Nat} {items : List Datum} (h : allOfLength n items = true) :
    (items.flatMap Datum.parts).length = items.length * n := by
  induction items with
  | nil => simp
  | cons d rest ih =>
    simp only [allOfLength, List.all_cons, Bool.and_eq_true, beq_iff_eq] at h
    obtain ⟨hd, hrest⟩ := h
    obtain ⟨items', hitems, hlength⟩ := Option.map_eq_some_iff.1 hd
    have hparts : d.parts.length = n := by simp [Datum.parts, hitems, hlength]
    rw [List.flatMap_cons, List.length_append, ih hrest, hparts, List.length_cons, Nat.succ_mul,
      Nat.add_comm]

/-- What two shapes have in common from the front. -/
def commonStart : List Nat → List Nat → List Nat
  | m :: ms, n :: ns => if m = n then m :: commonStart ms ns else []
  | _, _ => []

/-- What data without elements have in common: their dimensions, once some of them were seen, and
    whether the dimensions differ. -/
structure Common where
  dims : Option (List Nat) := none
  differ : Bool := false

/-- Takes in the next of some data without elements. An array brings all its dimensions; a list has
    one, and leaves off the dimensions that follow. -/
def Common.takeIn (c : Common) (d : Datum) : Common :=
  match c.dims, d.arrayShape? with
  | none, shape? => { c with dims := some (shape?.getD [0]) }
  | some known, some shape =>
    { dims := some (commonStart known shape), differ := c.differ || known != shape }
  | some known, none => { dims := some (known.take 1), differ := c.differ || known.isEmpty }

/-- The nesting of data that are all without elements, with a greatest count of dimensions. -/
def hollow (limit : Nat) (shape : List Nat) (items : List Datum) : Except ShapeDefect Nesting :=
  let common := items.foldl Common.takeIn {}
  let found := shape ++ common.dims.getD []
  let first := ((items.head?.bind Datum.arrayShape?).getD [0]).length
  if limit < shape.length + first then .error (.tooDeep limit)
  else if h : !common.differ ∧ volume found = 0 then .ok ⟨found, [], by simp [h.2]⟩
  else .error (.ragged found)

/-- Takes dimensions from the data of one depth, as many as are still allowed of a greatest
    count. -/
def unfold (limit : Nat) : (allowed : Nat) → (shape : List Nat) → (items : List Datum) →
    items.length = volume shape → Except ShapeDefect Nesting
  | 0, shape, items, h =>
    if items.all Datum.isSingle then .ok ⟨shape, items, h⟩ else .error (.tooDeep limit)
  | allowed + 1, shape, items, h =>
    if items.all Datum.isSingle then .ok ⟨shape, items, h⟩
    else
      let n := (items.headD .null).parts.length
      if huniform : allOfLength n items = true then
        if n = 0 then hollow limit shape items
        else
          unfold limit allowed (shape ++ [n]) (items.flatMap Datum.parts) (by
            rw [length_flatMap_parts huniform, volume_append_singleton, h])
      else .error (.ragged shape)

/-- A shape without the axes of length one in front that go beyond a count of dimensions. -/
def fitted (rank : Nat) : List Nat → List Nat
  | 1 :: rest => if rank < rest.length + 1 then fitted rank rest else 1 :: rest
  | shape => shape

/-- Whether an array of a shape can be repeated to fill another shape. -/
def spreadsTo (shape target : List Nat) : Bool :=
  shape.length ≤ target.length
    && (shape.reverse.zip target.reverse).all fun (m, n) => m = n || m = 1

/-- An array in the place of a shape, which it has to be able to fill. -/
def placeDefect? (place : List Nat) (shape : List Nat) : Option ShapeDefect :=
  let found := fitted place.length shape
  if spreadsTo found place then none else some (.unfit found place)

mutual

/-- The first array in a datum that its place in a shape cannot take. -/
def unfit? (place : List Nat) : Datum → Option ShapeDefect
  | .list items => firstUnfit? (place.drop 1) items
  | .array a => placeDefect? place a.shape
  | .objects shape _ => placeDefect? place shape
  | _ => none

/-- The first array in some data that its place in a shape cannot take. -/
def firstUnfit? (place : List Nat) : List Datum → Option ShapeDefect
  | [] => none
  | item :: rest => (unfit? place item).or (firstUnfit? place rest)

end

/-- The nesting of a datum that may have up to a count of dimensions. A list may have left off
    dimensions of an array in front of it, which then does not fit. -/
def nestingWithin (limit : Nat) (d : Datum) : Except ShapeDefect Nesting := do
  let N ← unfold limit limit [] [d] rfl
  if N.leaves.isEmpty then
    if let some defect := unfit? N.shape d then
      throw defect
  return N

/-- The nesting of a datum. -/
def nesting (d : Datum) : Except ShapeDefect Nesting :=
  nestingWithin maxRank d

/-- Elements of a type are real numbers; the name of the type is the one that a fault shows. -/
def checkType (name : String) (t : ElementType) (typeName : String) : Except Fault Unit :=
  if t = .object then .error (.invalid (.objects name))
  else if t.isReal then .ok ()
  else .error (.invalid (.notNumeric name typeName))

/-- A nesting of numbers as an array. -/
def ofNesting (N : Nesting) : Tensor where
  shape := N.shape
  entries := (N.leaves.map Datum.elementValue).toArray
  size_eq := by simp [N.length_eq]

/-- Data as an array of real numbers; the name is the one that a fault shows. -/
def ofDatum (name : String) : Datum → Except Fault Tensor
  | .array a => (checkType name a.type a.typeName).map fun _ => a.toTensor
  | d =>
    match nesting d with
    | .error defect => .error (.invalid (.notArray name defect))
    | .ok N =>
      (checkType name d.elementType d.elementType.name).map fun _ => ofNesting N

/-- An array of doubles is taken as it is. -/
@[simp]
theorem ofDatum_ofTensor (name : String) (t : Tensor) :
    ofDatum name (.array (.ofTensor t)) = .ok t := by
  show Except.ok (TypedArray.ofTensor t).toTensor = Except.ok t
  simp

/-- Elements one by one as doubles, in a given shape. -/
def ofElements {α : Type} (read : α → Except Fault Float) (shape : List Nat) (elements : List α)
    (h : elements.length = volume shape) : Except Fault Tensor :=
  let entries : Vector α (volume shape) := ⟨elements.toArray, by simp [h]⟩
  (entries.mapM read).map fun v => { shape, entries := v.toArray, size_eq := by simp }

/-- Data as an array of doubles, whatever its elements are. -/
def coerce : Datum → Except Fault Tensor
  | .array a => ofElements (Datum.doubleOfElement a.type) a.shape a.elements a.length_eq
  | d =>
    match nesting d with
    | .error defect => .error (.unreadable (.notArray defect))
    | .ok N => ofElements Datum.double N.shape N.leaves N.length_eq

end Tensor

end LinearSystems
