import LinearSystems.Text.Leading

/-!
# Steps of a calendar

The units that times are counted in, from years down to attoseconds, and the steps made of them. A
step is a count of one unit, or is left open until a time says what it is counted in. Two steps meet
in the coarsest step that both are made of; months are made of no whole count of weeks, so nothing
finer than a month is compared in length with a month or a year.
-/

namespace LinearSystems.Calendar

/-- The units of time. -/
inductive TimeUnit where
  | year
  | month
  | week
  | day
  | hour
  | minute
  | second
  | milli
  | micro
  | nano
  | pico
  | femto
  | atto
  deriving DecidableEq, Repr

namespace TimeUnit

/-- The units from the coarsest to the finest. -/
def all : List TimeUnit :=
  [year, month, week, day, hour, minute, second, milli, micro, nano, pico, femto, atto]

/-- The short name of a unit. -/
def code : TimeUnit → String
  | year => "Y"
  | month => "M"
  | week => "W"
  | day => "D"
  | hour => "h"
  | minute => "m"
  | second => "s"
  | milli => "ms"
  | micro => "us"
  | nano => "ns"
  | pico => "ps"
  | femto => "fs"
  | atto => "as"

/-- The name of a count of units. -/
def plural : TimeUnit → String
  | year => "years"
  | month => "months"
  | week => "weeks"
  | day => "days"
  | hour => "hours"
  | minute => "minutes"
  | second => "seconds"
  | milli => "milliseconds"
  | micro => "microseconds"
  | nano => "nanoseconds"
  | pico => "picoseconds"
  | femto => "femtoseconds"
  | atto => "attoseconds"

/-- How many of the next finer unit a unit is made of; one where that depends on the month. -/
def split : TimeUnit → Nat
  | year => 12
  | month => 1
  | week => 7
  | day => 24
  | hour => 60
  | minute => 60
  | _ => 1000

/-- The place of a unit among all, from the coarsest on. -/
def rank (u : TimeUnit) : Nat :=
  all.idxOf u

/-- Whether a unit has months in it. -/
def isMonthly (u : TimeUnit) : Bool :=
  u == year || u == month

/-- How many of a finer unit a unit is made of; one where that depends on the month. -/
def factor (u fine : TimeUnit) : Nat :=
  if u.isMonthly && !fine.isMonthly then 1
  else (((all.take fine.rank).drop u.rank).map split).foldl (· * ·) 1

/-- The finer units that a unit can be divided into, with how many of them stand for it. -/
def portions : TimeUnit → List (Int × TimeUnit)
  | year => [(12, month), (52, week), (365, day)]
  | month => [(4, week), (30, day), (720, hour)]
  | week => [(7, day), (168, hour), (10080, minute), (604800, second)]
  | day => [(24, hour), (1440, minute), (86400, second)]
  | hour => [(60, minute), (3600, second)]
  | minute => [(60, second), (60000, milli)]
  | u => [1000, 1000000].zip (all.drop (u.rank + 1))

/-- The finer of two units. -/
def finer (u v : TimeUnit) : TimeUnit :=
  if u.rank < v.rank then v else u

end TimeUnit

/-- A step of a calendar: some count of a unit. A step without a unit is open. -/
structure Step where
  unit : Option TimeUnit
  count : Nat := 1
  deriving DecidableEq, Repr

namespace Step

/-- The step of one unit. -/
def one (u : TimeUnit) : Step where
  unit := some u

/-- The step that is left open. -/
def unspecified : Step where
  unit := none

/-- The step in brackets; nothing if it is left open. -/
def text (s : Step) : String :=
  match s.unit with
  | none => ""
  | some u => "[" ++ (if s.count = 1 then "" else toString s.count) ++ u.code ++ "]"

/-- Whether two steps are both counted in months or both in none. -/
def isCommensurable (s t : Step) : Bool :=
  match s.unit, t.unit with
  | some u, some v => u.isMonthly == v.isMonthly
  | _, _ => true

/-- The step in which two steps meet; an open one takes on the other. -/
def join (s t : Step) : Step :=
  match s.unit, t.unit with
  | none, _ => t
  | _, none => s
  | some u, some v =>
    let fine := u.finer v
    { unit := some fine, count := Nat.gcd (s.count * u.factor fine) (t.count * v.factor fine) }

/-- The unit of a short name. Microseconds have a second one. -/
def unit? (name : String) : Option TimeUnit :=
  if name = "μs" then some .micro else TimeUnit.all.find? fun u => u.code == name

/-- Why the text of a step is none. -/
inductive Defect where
  /-- A text of another form, from a place on. -/
  | form (text : String) (place : Nat)
  /-- A unit that does not exist. -/
  | unknownUnit (text : String)
  /-- A part of a unit that is no whole count of a finer one. -/
  | uneven (text : String) (divisor : Int)
  /-- A part of a step that is left open. -/
  | openPart
  deriving DecidableEq, Repr

/-- The text of a defect of a step. -/
def Defect.message : Defect → String
  | .form text place =>
    "Invalid datetime metadata string \"" ++ text ++ "\""
      ++ (if place = 0 then "" else " at position " ++ toString place)
  | .unknownUnit text => "Invalid datetime unit in metadata string \"" ++ text ++ "\""
  | .uneven text divisor =>
    "divisor (" ++ toString divisor ++ ") is not a multiple of a lower-unit in datetime metadata \""
      ++ text ++ "\""
  | .openPart => "Can't use 'den' divisor with generic units"

/-- The greatest count of units in a step. -/
def maxCount : Int := Int.pow 2 31 - 1

/-- One of several equal parts of a step: a whole count of the coarsest unit that allows it. -/
def part? (u : TimeUnit) (count : Nat) (divisor : Int) : Option Step :=
  (u.portions.find? fun (k, _) => divisor ≠ 0 ∧ k % divisor = 0).map fun (k, fine) =>
    { unit := some fine, count := count * (k / divisor).toNat }

/-- The step of a unit that may be divided, which the given text of a step is written with. -/
def ofUnit (text : String) (count : Nat) (unit : Option TimeUnit) (divisor : Int) :
    Except Defect Step :=
  match unit with
  | none => if divisor = 1 then .ok unspecified else .error .openPart
  | some u =>
    if divisor = 1 then .ok { unit := some u, count }
    else
      match part? u count divisor with
      | some step => .ok step
      | none => .error (.uneven text divisor)

/-- Reads what stands between the brackets of a step: a count, a unit, and a divisor after a stroke.
    The place of the rest of a text is told by how much of it is left. -/
def readBody (text : String) (body : List Char) : Except Defect Step :=
  let faultAt := fun rest : List Char =>
    Except.error (Defect.form text (1 + (Text.byteCount body - Text.byteCount rest)))
  let (count, afterCount) := Text.leadingWhole body
  let n := count.getD 1
  if n < 0 ∨ maxCount < n then faultAt body
  else
    let name := String.ofList (afterCount.takeWhile (· != '/'))
    if name.isEmpty then faultAt afterCount
    else if (unit? name).isNone && name ≠ "generic" then .error (.unknownUnit text)
    else
      match afterCount.dropWhile (· != '/') with
      | [] => ofUnit text n.toNat (unit? name) 1
      | _ :: afterStroke =>
        match Text.leadingWhole afterStroke with
        | (some divisor, []) => ofUnit text n.toNat (unit? name) divisor
        | _ => faultAt afterStroke

/-- Reads a step in brackets; without a text it is left open. -/
def ofText (text : String) : Except Defect Step :=
  let fault := fun place => Except.error (Defect.form text place)
  match text.toList with
  | [] => .ok unspecified
  | first :: rest =>
    if text.utf8ByteSize < 3 then fault 0
    else if first ≠ '[' then fault 1
    else
      let body := rest.takeWhile (· != ']')
      match rest.dropWhile (· != ']') with
      | [] => fault (1 + Text.byteCount body)
      | _ :: after =>
        if body.isEmpty then fault 1
        else
          match readBody text body with
          | .error defect => .error defect
          | .ok step => if after.isEmpty then .ok step else fault (2 + Text.byteCount body)

end Step

end LinearSystems.Calendar
