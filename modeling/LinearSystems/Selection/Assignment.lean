import LinearSystems.Selection.Basic

/-!
# Assignment

A part of an array takes a value. A single value goes to every place of the part, an array or a list
has to fit its shape, where axes of length one in front are left off. The value is read as far as it
is needed: a list that fits a part as it stands is read entry by entry and leaves what it has
written when it comes to a fault, and any other list is read to its end before anything is written.
-/

namespace LinearSystems

variable {α : Type} {n : Nat}

/-- The elements of a datum that is to be assigned, and their shape. -/
structure Source where
  shape : List Nat
  leaves : Array Datum

namespace Source

/-- The elements of a nesting. -/
def ofNesting (N : Tensor.Nesting) : Source where
  shape := N.shape
  leaves := N.leaves.toArray

/-- The elements of an array. -/
def ofArray? : Datum → Option Source
  | .array a => some {
      shape := a.shape
      leaves := (a.elements.map fun e => Datum.array (.sole a.type e)).toArray }
  | .objects shape items => some { shape, leaves := items.toArray }
  | _ => none

/-- The elements of a datum that may have up to a count of dimensions. -/
def ofDatum (limit : Nat) (d : Datum) : Except Fault Source :=
  match ofArray? d with
  | some s => .ok s
  | none =>
    match Tensor.nestingWithin limit d with
    | .ok N => .ok (ofNesting N)
    | .error defect => .error (.unreadable (.notArray defect))

/-- The source in the shape that its axes after the first ones leave, where there is nothing else to
    it. -/
def within (s : Source) (rank : Nat) : Source :=
  let rest := s.shape.drop (s.shape.length - rank)
  if volume rest = volume s.shape then { s with shape := rest } else s

/-- The elements that go to the places of a shape, row by row. -/
def spread (s : Source) (target : List Nat) : List Datum :=
  spreadOver s.shape target s.leaves

end Source

/-- Writes elements to places one after the other, as far as they can be read. -/
def writeReading (read : Datum → Except Fault α) (entries : Vector α n) :
    List (Nat × Datum) → Vector α n × Except Fault Unit
  | [] => (entries, .ok ())
  | (k, d) :: rest =>
    match read d with
    | .ok x => writeReading read (entries.setIfInBounds k x) rest
    | .error f => (entries, .error f)

/-- Writes elements to places, if all of them can be read. -/
def writeRead (read : Datum → Except Fault α) (entries : Vector α n) (places : List (Nat × Datum)) :
    Vector α n × Except Fault Unit :=
  match writeReading read entries places with
  | (written, .ok ()) => (written, .ok ())
  | (_, .error f) => (entries, .error f)

/-- What an assignment writes to the places of a part, row by row, and whether it stops at a fault
    and leaves what it has written by then. -/
structure Writes where
  inOrder : Bool
  elements : List Datum

namespace Writes

variable {shape : List Nat}

/-- The elements of a value, all of which can be read; those of an array are not looked at yet. -/
def sourceOf (read : Datum → Except Fault α) (value : Datum) : Except Fault Source := do
  let s ← Source.ofDatum Tensor.maxRank value
  if !value.isArray then
    s.leaves.forM fun d => (read d).map fun _ => ()
  return s

/-- The writes to a part without lists of entries. -/
def toView (read : Datum → Except Fault α) (S : Selection shape) (value : Datum) :
    Except Fault Writes := do
  let target := S.ownShape
  let given ← Source.ofDatum target.length value
  let s := { given with shape := Tensor.fitted target.length given.shape }
  let inOrder := value.isArray || s.shape == target
  if !inOrder then
    s.leaves.forM fun d => (read d).map fun _ => ()
  if !Tensor.spreadsTo s.shape target then
    throw (.unreadable (.notArray (.unfit s.shape target)))
  return { inOrder, elements := s.spread target }

/-- The writes to what lists of entries name. -/
def toLists (read : Datum → Except Fault α) (S : Selection shape) (value : Datum) :
    Except Fault Writes := do
  let s ← sourceOf read value
  let listShape ← S.listShape
  let target := S.resultShape listShape
  let fit := s.within target.length
  if !Tensor.spreadsTo fit.shape target then
    throw (.misuse (.shapeOfValue s.shape target))
  S.checkNamed listShape
  return { inOrder := false, elements := fit.spread target }

/-- The writes to what a mask of the whole array marks. -/
def toMarked (read : Datum → Except Fault α) (marks : List Bool) (value : Datum) :
    Except Fault Writes := do
  let s ← sourceOf read value
  let count := marks.countP id
  match s.shape with
  | [] => return { inOrder := value.isArray, elements := s.spread [count] }
  | [found] =>
    if found ≠ 1 ∧ found ≠ count then
      throw (.misuse (.choiceCount found count))
    return { inOrder := value.isArray, elements := s.spread [count] }
  | given => throw (.misuse (.choiceRank given.length))

/-- The writes of a value to a part of an array. -/
def ofValue (read : Datum → Except Fault α) (places : List Place) (S : Selection shape)
    (value : Datum) : Except Fault Writes :=
  match places with
  | [.mask maskShape marks] =>
    if maskShape = shape then toMarked read marks value else toLists read S value
  | _ =>
    if S.isEntry then .ok { inOrder := true, elements := [value] }
    else if S.hasLists then toLists read S value
    else toView read S value

end Writes

/-- Writes elements to places of the storage in one of the two ways. -/
def write (read : Datum → Except Fault α) (entries : Vector α n) (storage : List Nat)
    (w : Writes) : Vector α n × Except Fault Unit :=
  if w.inOrder then writeReading read entries (storage.zip w.elements)
  else writeRead read entries (storage.zip w.elements)

/-- The places in the storage that are written to, and the writes. -/
def planned (read : Datum → Except Fault α) (shape : List Nat) (places : List Place)
    (value : Datum) : Except Fault (List Nat × Writes) := do
  let S ← Selection.ofPlaces shape places
  let w ← Writes.ofValue read places S value
  return (S.storagePlaces (← S.listShape), w)

/-- Assigns a value to the part of an array that some places name. -/
def assign (read : Datum → Except Fault α) {shape : List Nat} (entries : Vector α (volume shape))
    (places : List Place) (value : Datum) : Vector α (volume shape) × Except Fault Unit :=
  match planned read shape places value with
  | .ok (storage, w) => write read entries storage w
  | .error f => (entries, .error f)

/-- Assigns a value to a part of a vector. -/
def assignVector (read : Datum → Except Fault α) (v : Vector α n) (places : List Place)
    (value : Datum) : Vector α n × Except Fault Unit :=
  let (w, outcome) := assign read (v.cast (by simp : n = volume [n])) places value
  (w.cast (by simp), outcome)

/-- Assigns a value to a part of a matrix. -/
def Dense.assign {m n : Nat} (A : Dense Float m n) (places : List Place) (value : Datum) :
    Dense Float m n × Except Fault Unit :=
  let t := Tensor.ofDense A
  let (w, outcome) := LinearSystems.assign Datum.double ⟨t.entries, t.size_eq⟩ places value
  (Tensor.toDense { t with entries := w.toArray, size_eq := w.size_toArray } m n rfl, outcome)

namespace Tensor

/-- Assigns a value to a part of an array of doubles. -/
def assign (t : Tensor) (places : List Place) (value : Datum) : Tensor × Except Fault Unit :=
  let (w, outcome) := LinearSystems.assign Datum.double ⟨t.entries, t.size_eq⟩ places value
  ({ t with entries := w.toArray, size_eq := w.size_toArray }, outcome)

end Tensor

namespace TypedArray

/-- Assigns a value to a part of an array, whose type the value takes on. -/
def assign (a : TypedArray) (places : List Place) (value : Datum) :
    TypedArray × Except Fault Unit :=
  let (w, outcome) := LinearSystems.assign (Element.ofDatum a.type) a.entries places value
  ({ ofEntries a.type a.shape w with highByteFirst := a.highByteFirst }, outcome)

end TypedArray

namespace Datum

/-- Assigns a value to a part of an array of arbitrary data. -/
def assignObjects (shape : List Nat) (items : List Datum) (places : List Place) (value : Datum) :
    Datum × Except Fault Unit :=
  if h : items.length = volume shape then
    let entries : Vector Datum (volume shape) := ⟨items.toArray, by simp [h]⟩
    let (w, outcome) := LinearSystems.assign (fun d => .ok d.objectItem) entries places value
    (.objects shape w.toList, outcome)
  else (.objects shape items, .ok ())

end Datum

end LinearSystems
