import LinearSystems.Fault

/-!
# Truth and names

What a datum stands for where a truth value or a name is expected. An array stands for its only
element; one of no element or of several has no truth.
-/

namespace LinearSystems

namespace TypedArray

/-- The only element of an array, where an array stands for a truth value. -/
def single (a : TypedArray) : Except Fault Element :=
  match a.elements with
  | [] => .error (.unreadable .emptyTruth)
  | [e] => .ok e
  | _ => .error (.unreadable .ambiguousTruth)

end TypedArray

/-- Whether an element counts as true: false, zero and an empty text do not. -/
def Element.isTrue : Element → Bool
  | .truth b => b
  | .number (.whole i) => i != 0
  | .number (.real x) => x != 0.0
  | .complex re im => re != 0.0 || im != 0.0
  | .text s => !s.isEmpty
  | .ticks count => count != some 0
  | .compound _ isTrue => isTrue

namespace Datum

mutual

/-- Whether the datum counts as true: nothing, false, zero and what is empty do not. An array has to
    have one element. -/
def truth : Datum → Except Fault Bool
  | .null => .ok false
  | .bool b => .ok b
  | .number x => .ok (Element.number x).isTrue
  | .text s => .ok (!s.isEmpty)
  | .list items => .ok (!items.isEmpty)
  | .record fields => .ok (!fields.isEmpty)
  | .array a => a.single.map Element.isTrue
  | .objects _ items => soleTruth items

/-- Whether the only one of some data counts as true. -/
def soleTruth : List Datum → Except Fault Bool
  | [] => .error (.unreadable .emptyTruth)
  | [d] => d.truth
  | _ => .error (.unreadable .ambiguousTruth)

end

mutual

/-- Whether the datum is a name. An array is compared by its element. -/
def isName (name : String) : Datum → Except Fault Bool
  | .text s => .ok (s == name)
  | .array a => a.single.map fun e =>
    match a.type, e with
    | .bytes _, _ => false
    | _, .text s => s == name
    | _, _ => false
  | .objects _ items => isSoleName name items
  | _ => .ok false

/-- Whether the only one of some data is a name. -/
def isSoleName (name : String) : List Datum → Except Fault Bool
  | [] => .error (.unreadable .emptyTruth)
  | [d] => d.isName name
  | _ => .error (.unreadable .ambiguousTruth)

end

/-- The first of some names that the datum is. -/
def nameAmong? (d : Datum) : List String → Except Fault (Option String)
  | [] => .ok none
  | name :: rest => do
    if ← d.isName name then
      return some name
    d.nameAmong? rest

/-- Whether an element of a type is a number of a given value; a truth value is zero or one, and a
    span of time is its count. -/
def isCountElement (t : ElementType) (n : Nat) : Element → Bool
  | .truth b => (if b then 1 else 0) == n
  | .number x => x.place? == some (0, (n : Rat))
  | .complex re im => (Number.real re).place? == some (0, (n : Rat)) && im == 0.0
  | .ticks count => count == some (n : Int) && (t matches .span _)
  | .text _ => false
  | .compound _ _ => false

mutual

/-- Whether the datum is a number of a given value. An array is compared by its element. -/
def isCount (n : Nat) : Datum → Except Fault Bool
  | .bool b => .ok ((if b then 1 else 0) == n)
  | .number x => .ok (x.place? == some (0, (n : Rat)))
  | .array a => a.single.map (isCountElement a.type n)
  | .objects _ items => isSoleCount n items
  | _ => .ok false

/-- Whether the only one of some data is a number of a given value. -/
def isSoleCount (n : Nat) : List Datum → Except Fault Bool
  | [] => .error (.unreadable .emptyTruth)
  | [d] => d.isCount n
  | _ => .error (.unreadable .ambiguousTruth)

end

end Datum

end LinearSystems
