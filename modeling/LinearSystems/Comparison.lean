import LinearSystems.Datum.Same
import LinearSystems.Search
import LinearSystems.Tensor.Entrywise
import LinearSystems.Tensor.Typed
import LinearSystems.Text.Search

/-!
# Comparisons

Whether one datum lies below another. Numbers by themselves are compared by their exact values. An
array is compared element by element, in the type in which its elements meet those of the other
side; a number by itself takes on the type of the array. The outcome has to be a single truth value
in the end. Where the left side is no array, the comparison is made from the side of the array, with
the opposite sign.
-/

namespace LinearSystems

/-- The sign of a comparison. -/
inductive Sign where
  | below
  | above
  deriving DecidableEq, Repr

namespace Sign

/-- The sign as text. -/
def text : Sign → String
  | .below => "<"
  | .above => ">"

/-- The name of a comparison of elements. -/
def operation : Sign → String
  | .below => "less"
  | .above => "greater"

end Sign

/-- Whether an element lies below another one of the same type. What is no number, and no time, lies
    below nothing. Complex numbers of one real part are ordered by their imaginary parts. -/
def Element.below : Element → Element → Bool
  | .number x, .number y => x.less y
  | .truth a, .truth b => !a && b
  | .complex a b, .complex c d =>
    (decide (a < c) && !b.isNaN && !d.isNaN) || (a == c && decide (b < d))
  | .ticks (some m), .ticks (some n) => decide (m < n)
  | .text s, .text t => decide (s < t)
  | _, _ => false

/-- Whether an element stands to another one of the same type as a sign says. -/
def Element.stands (sign : Sign) (x y : Element) : Bool :=
  match sign with
  | .below => x.below y
  | .above => y.below x

namespace ElementType

/-- Whether the elements are whole numbers or truth values. -/
def isWhole : ElementType → Bool
  | .truth => true
  | .integer .. => true
  | _ => false

/-- Whether the elements are numbers or truth values. -/
def isNumber : ElementType → Bool
  | .real _ => true
  | .complex _ => true
  | t => t.isWhole

/-- A type that holds all whole numbers of a machine word, with a sign or without one. -/
def anyWord : ElementType := .integer true 128

/-- The type in which elements of two types are compared; none if they are not. -/
def comparedIn? (s t : ElementType) : Except Fault (Option ElementType) :=
  if s.isWhole && t.isWhole then .ok (some anyWord)
  else if s.isNumber && t.isNumber then .ok (some (join s t))
  else
    match s, t with
    | .span s, .span t =>
      if s.isCommensurable t then .ok (some (.span (s.join t)))
      else .error (.unreadable (.noCommonStep s t))
    | .span s, t => .ok (if joinCount s t = .object then none else some (.span s))
    | t, .span s => .ok (if joinCount s t = .object then none else some (.span s))
    | _, _ => .ok none

end ElementType

/-- One side of a comparison with an array. -/
inductive Comparand where
  | number (x : Number)
  | typed (a : TypedArray)
  | objects (shape : List Nat) (items : List Datum)

namespace Comparand

/-- A datum as one side of a comparison. -/
def ofDatum : Datum → Except Fault Comparand
  | .number x => .ok (.number x)
  | d => do
    match ← d.asArray with
    | .array a => return .typed a
    | .objects shape items => return .objects shape items
    | d => return .objects [] [d]

/-- What the type of a side is called. -/
def className : Comparand → String
  | .number (.whole _) => "_PyLongDType"
  | .number (.real _) => "_PyFloatDType"
  | .typed a => a.type.className
  | .objects .. => ElementType.object.className

/-- The shape of a side. -/
def shape : Comparand → List Nat
  | .number _ => []
  | .typed a => a.shape
  | .objects shape _ => shape

/-- The elements of a side as data. -/
def data : Comparand → List Datum
  | .number x => [.number x]
  | .typed a => a.elements.map (Datum.ofElement a.type)
  | .objects _ items => items

/-- A number by itself in the type that it takes on beside elements of a type; none if it has no
    place among them. -/
def adapted? (t : ElementType) (x : Number) : Except Fault (Option TypedArray) :=
  let rounded := fun bits => do
    return some (.sole (.real bits) (.number (.real (roundTo bits (← Datum.doubleOfNumber x)))))
  match t, x with
  | .real bits, _ => rounded bits
  | .complex bits, _ => rounded (bits / 2)
  | .truth, .whole i =>
    if fitsWord i then .ok (some (.sole (.integer true 64) (.number x)))
    else .error (.unreadable .beyondWord)
  | .integer .., .whole _ => .ok (some (.sole .anyWord (.number x)))
  | .truth, .real _ => rounded 64
  | .integer .., .real _ => rounded 64
  | .span step, .whole i => (Element.ofCount i).map fun e => some (.sole (.span step) e)
  | _, _ => .ok none

/-- The elements of two arrays that stand side by side, in the common shape of the arrays. -/
def sideBySide {α β : Type} (s : List Nat) (xs : List α) (t : List Nat) (ys : List β) :
    Except Fault (List (α × β)) :=
  match commonShape? s t with
  | none => .error (.misuse (.unmatched [s, t]))
  | some shape =>
    let xs := xs.toArray
    let ys := ys.toArray
    let place := fun own k => placeOf (padded shape.length own) (coordinates shape k)
    .ok ((List.range (volume shape)).filterMap fun k => do
      return (← xs[place s k]?, ← ys[place t k]?))

/-- Compares two data that are no arrays. -/
def compareItems (sign : Sign) (x y : Datum) : Except Fault Bool :=
  match x.count?, y.count?, x, y with
  | some m, some n, _, _ => .ok (Element.stands sign (.number (.whole m)) (.number (.whole n)))
  | some m, _, _, .number y => .ok (Element.stands sign (.number (.whole m)) (.number y))
  | _, some n, .number x, _ => .ok (Element.stands sign (.number x) (.number (.whole n)))
  | _, _, .number x, .number y => .ok (Element.stands sign (.number x) (.number y))
  | _, _, .text s, .text t => .ok (Element.stands sign (.text s) (.text t))
  | _, _, x, y => .error (.unreadable (.unordered sign.text x.itemName y.itemName))

/-- Compares two arrays element by element, in the type in which they meet. -/
def compareTyped (sign : Sign) (a b : TypedArray) (refused : Fault) : Except Fault (List Bool) := do
  match ← a.type.comparedIn? b.type with
  | none => throw refused
  | some t =>
    (← sideBySide a.shape a.elements b.shape b.elements).mapM fun (x, y) => do
      return Element.stands sign (← Element.convert a.type t x) (← Element.convert b.type t y)

/-- Compares two sides, of which one is an array, element by element. -/
def compare (sign : Sign) (A B : Comparand) : Except Fault (List Bool) := do
  let refused : Fault := .unreadable (.noOperation sign.operation [A.className, B.className])
  match A, B with
  | .typed a, .typed b => compareTyped sign a b refused
  | .typed a, .number y =>
    match ← adapted? a.type y with
    | some b => compareTyped sign a b refused
    | none => throw refused
  | .number x, .typed b =>
    match ← adapted? b.type x with
    | some a => compareTyped sign a b refused
    | none => throw refused
  | A, B =>
    (← sideBySide A.shape A.data B.shape B.data).mapM fun (x, y) => compareItems sign x y

end Comparand

/-- The only one of some truth values. -/
def soleOutcome : List Bool → Except Fault Bool
  | [] => .error (.unreadable .emptyTruth)
  | [b] => .ok b
  | _ => .error (.unreadable .ambiguousTruth)

namespace Datum

/-- Whether a datum lies below another one. -/
def isBelow (left right : Datum) : Except Fault Bool := do
  if left.isArray then
    soleOutcome (← (← Comparand.ofDatum left).compare .below (← Comparand.ofDatum right))
  else if right.isArray then
    soleOutcome (← (← Comparand.ofDatum right).compare .above (← Comparand.ofDatum left))
  else
    Comparand.compareItems .below left right

/-- Whether two data differ. Arrays are compared element by element, and then have to have one. -/
def differs (x y : Datum) : Except Fault Bool := do
  if x.isArray || y.isArray then
    let A ← Comparand.ofDatum x
    let B ← Comparand.ofDatum y
    let pairs ← Comparand.sideBySide A.shape A.data B.shape B.data
    soleOutcome (pairs.map fun (x, y) => !same x y)
  else
    return !same x y

/-- The count of digits of the greatest count that is told from one without end, where a bound is
    not given as a number by itself. -/
def countBits : Nat := 53

/-- How many of the numbers 0, 1, 2, … lie below a datum. -/
def countBelow : Datum → Except Fault Nat
  | .number x => .ok x.countBelow
  | d => do
    let isBelow := fun n : Nat => (Datum.number (.whole n)).isBelow d
    let _ ← isBelow 0
    return firstFailing (fun n => (isBelow n).toOption.getD false) countBits 0

/-- Puts a datum among sorted ones, after those that it is not below. Given are those from the
    largest one on. -/
def insertSorted (d : Datum) : List Datum → Except Fault (List Datum)
  | [] => .ok [d]
  | last :: rest => do
    if ← d.isBelow last then
      return last :: (← insertSorted d rest)
    return d :: last :: rest

/-- Some data in ascending order, as far as they have one. -/
def sorted (items : List Datum) : Except Fault (List Datum) := do
  return (← items.foldlM (fun found d => insertSorted d found) []).reverse

/-- Whether a datum is among the parts of another one: a piece of a text, an element of a list or of
    an array, or the name of an entry of a record. -/
def contains (d part : Datum) : Except Fault Bool :=
  match d, part with
  | .text s, .text p => .ok (Text.occursIn p.toList s.toList)
  | .text _, part => .error (.unreadable (.noPart part.ownerName))
  | .list items, part => items.anyM fun item => (part.differs item).map (!·)
  | .record fields, part =>
    part.checkKey.map fun _ => fields.any fun field => part.same (.text field.1)
  | d, part =>
    if d.isArray then do
      let A ← Comparand.ofDatum d
      let B ← Comparand.ofDatum part
      return (← Comparand.sideBySide A.shape A.data B.shape B.data).any fun (x, y) => same x y
    else .error (.unreadable (.noParts d.typeName))

end Datum

end LinearSystems
