import LinearSystems.Fault

/-!
# Equal data

Which data are equal, and what something can be stored under. Numbers are equal if their exact
values are, truth values are equal to zero and one, and a number that is none is not equal to
itself.
-/

namespace LinearSystems

namespace Datum

/-- Whether two numbers by themselves are equal. -/
def sameNumber (x y : Number) : Bool :=
  match x.place?, y.place? with
  | some p, some q => p == q
  | _, _ => false

mutual

/-- Whether two data are equal. A truth value equals zero or one, and a record another one of the
    same entries. -/
def same : Datum → Datum → Bool
  | .null, .null => true
  | .text s, .text t => s == t
  | .bool a, .bool b => a == b
  | .bool a, .number y => sameNumber (.whole (if a then 1 else 0)) y
  | .number x, .bool b => sameNumber x (.whole (if b then 1 else 0))
  | .number x, .number y => sameNumber x y
  | .list xs, .list ys => sameItems xs ys
  | .record xs, .record ys => xs.length == ys.length && sameFields xs ys
  | _, _ => false

/-- Whether two lists of data are equal. -/
def sameItems : List Datum → List Datum → Bool
  | [], [] => true
  | x :: xs, y :: ys => same x y && sameItems xs ys
  | _, _ => false

/-- Whether every entry of a record is an entry of another one. -/
def sameFields : List (String × Datum) → List (String × Datum) → Bool
  | [], _ => true
  | (name, x) :: xs, ys =>
    (match ys.lookup name with
      | some y => same x y
      | none => false) && sameFields xs ys

end

/-- Nothing is stored under a list, a record or an array. -/
def checkKey (d : Datum) : Except Fault Unit :=
  let refused : Except Fault Unit := .error (.misuse (.noKey d.ownerName))
  match d with
  | .list _ => refused
  | .record _ => refused
  | .array _ => refused
  | .objects .. => refused
  | _ => .ok ()

end Datum

end LinearSystems
