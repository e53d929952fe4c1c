import LinearSystems.Datum.Reading

/-!
# Options of the solvers

The checks on what is not part of the system: a tolerance, a count, and the choice of a backend.
-/

namespace LinearSystems

namespace Datum

mutual

/-- Whether the whole numbers in a datum are short enough to be written. -/
def isWritable : Datum → Bool
  | .number (.whole i) => decide (i.natAbs < Nat.pow 10 Numeral.maxDigits)
  | .list items => allWritable items
  | .objects _ items => allWritable items
  | _ => true

/-- Whether those in some data are. -/
def allWritable : List Datum → Bool
  | [] => true
  | item :: rest => isWritable item && allWritable rest

end

end Datum

namespace Options

/-- A tolerance is a number, fits a double, and is positive and finite. -/
def checkPositive (name : String) (d : Datum) : Except Fault Float :=
  match d with
  | .number given =>
    match given.nearest? with
    | none => .error (.unreadable .beyondDoubles)
    | some x =>
      if x.isFinite && 0.0 < x then .ok x else .error (.invalid (.notPositive name x))
  | _ => .error (.invalid (.notReal name d.typeName))

/-- A count is a whole number of at least zero. A negative one is shown, so it has to be short
    enough to be written. -/
def checkCount (name : String) (d : Datum) : Except Fault Nat :=
  match d with
  | .number (.whole i) =>
    if i < 0 then do
      let _ ← Numeral.written i.natAbs
      throw (.invalid (.negative name i))
    else .ok i.toNat
  | _ => .error (.invalid (.notWhole name d.typeName))

/-- The names that choose the backend: one leaves the choice open. -/
def backendNames : List String := ["auto", "cpu"]

/-- There is one backend, chosen by its name or by leaving the choice open. -/
def checkBackend (choice : Datum) : Except Fault Unit := do
  if (← choice.nameAmong? backendNames).isNone then
    throw (.invalid (.unknownBackend choice))

/-- The backend when no choice is made. -/
def defaultBackend : Datum := .text "cpu"

/-- A datum that a message shows has to be short enough to be written. -/
def checkShown (d : Datum) : Except Fault Unit :=
  if d.isWritable then .ok () else .error (.misuse (.tooManyDigits Numeral.maxDigits))

theorem checkShown_zero : checkShown (.number (.whole 0)) = .ok () := by
  have hzero : (Datum.number (.whole 0)).isWritable = true := by decide +kernel
  rw [checkShown, hzero]
  rfl

end Options

end LinearSystems
