import LinearSystems.Tensor.Typed

/-!
# Places

What names a part of an array, one place after the other: an entry of an axis, a range of them, a
new axis of length one, a choice to take everything or nothing, the entries that a list of whole
numbers names, or those that a mask of truth values marks. A list of whole numbers may itself have
several dimensions, and a mask spans as many axes as it has dimensions.
-/

namespace LinearSystems

/-- What stands for one or several axes of an array. -/
inductive Place where
  | entry (i : Int)
  /-- The entries from a number on up to another one; an end that is not given is that of the
      axis. -/
  | range (start stop : Option Int)
  | newAxis
  /-- Everything or nothing, without an axis of its own. -/
  | choice (taken : Bool)
  | named (shape : List Nat) (entries : List Int)
  | mask (shape : List Nat) (marks : List Bool)
  deriving DecidableEq, Repr

namespace Place

/-- All entries of an axis. -/
def all : Place := .range none none

/-- A whole number as an entry, which has to fit a word. One that fits a word without a sign is too
    large for a place, and any other is none. -/
def ofWhole (i : Int) : Except Fault Place :=
  if fitsWord i then .ok (.entry i)
  else if Int.pow 2 63 ≤ i ∧ i < Int.pow 2 64 then .error (.unreadable .beyondWord)
  else .error (.misuse .noPlace)

/-- The whole number of an element as an entry; one of a type without a sign is taken as the word of
    the same bits. -/
def entryOf : Element → Int
  | .number (.whole i) => wrapped true 64 i
  | _ => 0

/-- An array of whole numbers or truth values as a place; the fault is the one for another type. -/
def ofArray (other : Misuse) (a : TypedArray) : Except Fault Place :=
  match a.type, a.shape, a.elements with
  | .truth, [], [e] => .ok (.choice e.isTrue)
  | .truth, shape, elements => .ok (.mask shape (elements.map Element.isTrue))
  | .integer .., [], [.number (.whole i)] => ofWhole i
  | .integer .., shape, elements => .ok (.named shape (elements.map entryOf))
  | _, _, _ => .error (.misuse other)

/-- A datum as a place. A list without elements names no entries, whatever its type. -/
def ofDatum : Datum → Except Fault Place
  | .null => .ok .newAxis
  | .bool b => .ok (.choice b)
  | .number (.whole i) => ofWhole i
  | .list items => do
    match ← (Datum.list items).asArray with
    | .array a =>
      if a.elements.isEmpty then return .named a.shape []
      ofArray .noPlace a
    | .objects shape [] => return .named shape []
    | _ => throw (.misuse .noPlace)
  | .array a => ofArray .noPlaces a
  | .objects .. => .error (.misuse .noPlaces)
  | _ => .error (.misuse .noPlace)

/-- A bound of a range: a whole number, or nothing for the end of the axis. -/
def bound : Datum → Except Fault (Option Int)
  | .null => .ok none
  | .bool b => .ok (some (if b then 1 else 0))
  | .number (.whole i) => .ok (some i)
  | .array { type := .integer .., shape := [], elements := [.number (.whole i)], .. } =>
    .ok (some i)
  | d => .error (.unreadable (if d.isArray then .noBoundArray else .noBound))

/-- Reads places and goes on with them; a place that is none changes nothing. -/
def reading {σ : Type} (state : σ) (places : List Datum)
    (next : List Place → σ × Except Fault Unit) : σ × Except Fault Unit :=
  match places.mapM ofDatum with
  | .ok places => next places
  | .error f => (state, .error f)

/-- How many axes a place takes up. -/
def axes : Place → Nat
  | .entry _ => 1
  | .range .. => 1
  | .newAxis => 0
  | .choice _ => 0
  | .named .. => 1
  | .mask shape _ => shape.length

/-- How many dimensions of its own a place has in what is selected. -/
def ownDimensions : Place → Nat
  | .range .. => 1
  | .newAxis => 1
  | _ => 0

end Place

end LinearSystems
