import LinearSystems.ElementType
import LinearSystems.Number
import LinearSystems.Tensor.Basic

/-!
# Arrays of a known element type

An array as it is handed over: the type of its elements, its shape, and the elements row by row. The
count of elements belongs to the type. An array of doubles is one of these, and an array of real
numbers of any type can be read as one.
-/

namespace LinearSystems

/-- One element of an array of a known type. -/
inductive Element where
  | truth (b : Bool)
  | number (x : Number)
  | complex (re im : Float)
  | text (s : String)
  /-- A count of steps of a calendar; none for no time. -/
  | ticks (count : Option Int)
  /-- Several fields, by how they are shown and whether any of them counts as true. -/
  | compound (shown : String) (isTrue : Bool)

/-- The count that stands for no time. -/
def noTime : Int := -Int.pow 2 63

/-- The nearest double to an element: a truth value is zero or one, of a complex number its real
    part counts, and a text is zero, as are several fields. -/
def Element.toFloat : Element → Float
  | .truth b => if b then 1.0 else 0.0
  | .number (.whole i) => Float.ofInt i
  | .number (.real x) => x
  | .complex re _ => re
  | .text _ => 0.0
  | .compound _ _ => 0.0
  | .ticks count => Float.ofInt (count.getD noTime)

/-- The imaginary part of an element. -/
def Element.imaginary : Element → Float
  | .complex _ im => im
  | _ => 0.0

/-- The largest finite number in half precision. -/
def largestHalf : Float := 65504.0

/-- Rounds a double to half precision, a half to even: eleven binary digits, no finer than
    `2 ^ -24`, and an infinity beyond the largest. -/
def toHalf (x : Float) : Float :=
  match x.toModel.unpack with
  | .finite s m e _ =>
    let unit := max ((Nat.log2 m : Int) + e - 10) (-24)
    let y := Float.scaleB (Float.ofNat (Decimal.Fraction.binary m (e - unit)).round) unit
    let rounded := if y > largestHalf then 1.0 / 0.0 else y
    if s == .negative then -rounded else rounded
  | _ => x

/-- Rounds a double to a real type of a size in bits. -/
def roundTo (bits : Nat) (x : Float) : Float :=
  if bits ≤ 16 then toHalf x else if bits ≤ 32 then x.toFloat32.toFloat else x

/-- An array with the type of its elements. The elements may be stored with their highest byte
    first, which only the name of their type shows. -/
structure TypedArray where
  type : ElementType
  shape : List Nat
  elements : List Element
  length_eq : elements.length = volume shape
  highByteFirst : Bool := false

namespace TypedArray

/-- The elements with their count. -/
def entries (a : TypedArray) : Vector Element (volume a.shape) :=
  ⟨a.elements.toArray, by simp [a.length_eq]⟩

/-- An array of as many elements as its shape has places. -/
def ofEntries (t : ElementType) (shape : List Nat) (entries : Vector Element (volume shape)) :
    TypedArray where
  type := t
  shape := shape
  elements := entries.toList
  length_eq := by simp

/-- Whether the order of the bytes shows in the name of the type. -/
def showsByteOrder (a : TypedArray) : Bool :=
  a.highByteFirst && a.type.hasByteOrder

/-- The name of the type of the elements, with their order of bytes. -/
def typeName (a : TypedArray) : String :=
  if a.showsByteOrder then a.type.highByteName else a.type.name

/-- An array without dimensions. -/
def sole (t : ElementType) (e : Element) : TypedArray where
  type := t
  shape := []
  elements := [e]
  length_eq := by simp

/-- An array of doubles with its type. -/
def ofTensor (t : Tensor) : TypedArray where
  type := .real 64
  shape := t.shape
  elements := t.entries.toList.map fun x => .number (.real x)
  length_eq := by simp [t.size_eq]

/-- The elements as doubles. -/
def toTensor (a : TypedArray) : Tensor where
  shape := a.shape
  entries := (a.elements.map Element.toFloat).toArray
  size_eq := by simp [a.length_eq]

/-- Doubles stay what they are. -/
@[simp]
theorem toTensor_ofTensor (t : Tensor) : (ofTensor t).toTensor = t := by
  have : (Element.toFloat ∘ fun x => Element.number (.real x)) = id := rfl
  simp [toTensor, ofTensor, this]

/-- The elements of a part of the first dimension lie within the array. -/
theorem part_le {a : TypedArray} {n : Nat} {rest : List Nat} (h : a.shape = n :: rest)
    (i : Fin n) : i.val * volume rest + volume rest ≤ a.elements.length := by
  rw [a.length_eq, h, volume_cons, ← Nat.succ_mul]
  exact Nat.mul_le_mul_right _ i.isLt

/-- The parts of an array along its first dimension; none for a single element. -/
def parts? (a : TypedArray) : Option (List TypedArray) :=
  match h : a.shape with
  | [] => none
  | n :: rest => some (List.ofFn fun i : Fin n =>
      { type := a.type
        shape := rest
        elements := (a.elements.drop (i.val * volume rest)).take (volume rest)
        length_eq := by
          have hle := part_le h i
          rw [List.length_take, List.length_drop]
          omega
        highByteFirst := a.highByteFirst })

end TypedArray

end LinearSystems
