import LinearSystems.Datum.Same

/-!
# Members

What a system or a solution shows under a name, as far as a write to it goes. The entries of an
array may be written to unless it is fixed, a record takes every key that something can be stored
under, and anything else takes no entries at all.
-/

namespace LinearSystems

namespace Datum

/-- The name of a member. -/
def memberName : Datum → Except Fault String
  | .text s => .ok s
  | d => .error (.misuse (.noMemberName d.ownerName))

end Datum

/-- A member by what a write to it finds. -/
inductive Member where
  /-- An array that takes writes. -/
  | array
  /-- An array that refuses all writes. -/
  | fixed
  | record
  /-- Something without entries, by the name of its type. -/
  | plain (typeName : String)
  deriving DecidableEq, Repr

namespace Member

/-- A member that may be absent. -/
def orAbsent {α : Type} (m : Member) (value : Option α) : Member :=
  if value.isSome then m else .plain Datum.null.typeName

/-- An action. -/
def action : Member := .plain "method"

/-- What goes wrong with a write to a member, leaving aside the places in an array. -/
def checkWrite (m : Member) (places : List Datum) : Except Fault Unit :=
  match m with
  | .array => .ok ()
  | .fixed => .error (.misuse .readOnly)
  | .record => places.forM Datum.checkKey
  | .plain typeName => .error (.misuse (.notWritable typeName))

/-- The members that everything under a name has. -/
def general : List (String × Member) :=
  [("__doc__", .plain "str"), ("__module__", .plain "str"), ("__dict__", .record),
    ("__annotations__", .record), ("__dataclass_fields__", .record),
    ("__match_args__", .plain "tuple"), ("__class__", .plain "type"),
    ("__weakref__", .plain Datum.null.typeName), ("__init__", action), ("__repr__", action),
    ("__eq__", action)]

end Member

end LinearSystems
