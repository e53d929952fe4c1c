import LinearSystems.Calendar.Step

/-!
# Dates

A moment is a date of the calendar with a time of day. Moments are counted in steps from the
beginning of the year 1970, backwards before it, and a moment within a step belongs to the beginning
of that step. A count of steps is shown down to the unit that it is counted in.
-/

namespace LinearSystems.Calendar

/-- A date and a time of day. Parts of a second are counted in attoseconds. -/
structure Moment where
  year : Int
  month : Nat := 1
  day : Nat := 1
  hour : Nat := 0
  minute : Nat := 0
  second : Nat := 0
  attos : Nat := 0
  deriving DecidableEq, Repr

/-- Whether a year has a leap day. -/
def isLeap (year : Int) : Bool :=
  year % 4 == 0 && (year % 100 != 0 || year % 400 == 0)

/-- The days of a month. -/
def daysIn (year : Int) (month : Nat) : Nat :=
  if month = 2 then (if isLeap year then 29 else 28)
  else if month = 4 ∨ month = 6 ∨ month = 9 ∨ month = 11 then 30
  else 31

/-- The days from the beginning of 1970 to the beginning of a year. -/
def daysBefore (year : Int) : Int :=
  let y := year - 1
  365 * (year - 1970) + (y / 4 - 492) - (y / 100 - 19) + (y / 400 - 4)

/-- The days of a year before a month. -/
def daysBeforeMonth (year : Int) (month : Nat) : Nat :=
  ((List.range (month - 1)).map fun m => daysIn year (m + 1)).foldl (· + ·) 0

/-- The attoseconds of a second. -/
def attosPerSecond : Nat := Nat.pow 10 18

namespace Moment

/-- The days from the beginning of 1970 to a moment. -/
def days (m : Moment) : Int :=
  daysBefore m.year + daysBeforeMonth m.year m.month + (m.day - 1 : Int)

/-- The attoseconds since the day began. -/
def attosOfDay (m : Moment) : Nat :=
  ((m.hour * 60 + m.minute) * 60 + m.second) * attosPerSecond + m.attos

/-- The attoseconds of a unit that has no months in it. -/
def attosPerUnit (u : TimeUnit) : Nat :=
  u.factor .atto

/-- How many units have passed from the beginning of 1970 to a moment. -/
def units (m : Moment) : TimeUnit → Int
  | .year => m.year - 1970
  | .month => 12 * (m.year - 1970) + (m.month - 1 : Int)
  | u => (m.days * attosPerUnit .day + m.attosOfDay) / attosPerUnit u

/-- How many steps have passed from the beginning of 1970 to a moment. An open step counts
    nothing. -/
def ticks (m : Moment) (s : Step) : Int :=
  match s.unit with
  | none => 0
  | some u => m.units u / s.count

/-- The month of a day of a year, counted from zero, and the day in that month, where `month` months
    are behind. -/
def monthOfDay (year : Int) : (left month day : Nat) → Nat × Nat
  | 0, month, day => (month, day)
  | left + 1, month, day =>
    let n := daysIn year (month + 1)
    if day < n then (month, day) else monthOfDay year left (month + 1) (day - n)

/-- The year of a day counted from the beginning of 1970. -/
def yearOfDay (day : Int) : Int :=
  let guess := 1970 + day * 400 / 146097
  if day < daysBefore guess then guess - 1
  else if daysBefore (guess + 1) ≤ day then guess + 1
  else guess

/-- The moment at which a count of attoseconds since the beginning of 1970 has passed. -/
def ofAttos (attos : Int) : Moment :=
  let day := attos / attosPerUnit .day
  let time := (attos % attosPerUnit .day).toNat
  let year := yearOfDay day
  let (month, dayOfMonth) := monthOfDay year 11 0 (day - daysBefore year).toNat
  let seconds := time / attosPerSecond
  { year
    month := month + 1
    day := dayOfMonth + 1
    hour := seconds / 3600
    minute := seconds / 60 % 60
    second := seconds % 60
    attos := time % attosPerSecond }

/-- The beginning of a unit that is counted from the beginning of 1970. -/
def ofUnits (u : TimeUnit) (n : Int) : Moment :=
  match u with
  | .year => { year := 1970 + n }
  | .month => { year := 1970 + n / 12, month := (n % 12).toNat + 1 }
  | u => ofAttos (n * attosPerUnit u)

/-- A number with zeros in front of it, up to a count of digits. -/
def filled (width n : Nat) : String :=
  let digits := toString n
  String.ofList (List.replicate (width - digits.length) '0') ++ digits

/-- A year, of at least four characters with its sign. -/
def yearText (year : Int) : String :=
  if year < 0 then "-" ++ filled 3 year.natAbs else filled 4 year.natAbs

/-- A moment down to a unit. A week is shown by its first day. -/
def text (m : Moment) (u : TimeUnit) : String :=
  let date := yearText m.year ++ "-" ++ filled 2 m.month ++ "-" ++ filled 2 m.day
  let hour := date ++ "T" ++ filled 2 m.hour
  let minute := hour ++ ":" ++ filled 2 m.minute
  let second := minute ++ ":" ++ filled 2 m.second
  match u with
  | .year => yearText m.year
  | .month => yearText m.year ++ "-" ++ filled 2 m.month
  | .week => date
  | .day => date
  | .hour => hour
  | .minute => minute
  | .second => second
  | u =>
    let places := 3 * (u.rank - TimeUnit.second.rank)
    second ++ "." ++ filled places (m.attos / Nat.pow 10 (18 - places))

end Moment

/-- The beginning of a step that is counted from the beginning of 1970, as text. What is counted in
    no unit is no time. -/
def dateText (s : Step) (ticks : Int) : String :=
  match s.unit with
  | none => "NaT"
  | some u => (Moment.ofUnits u (ticks * s.count)).text u

/-- A count of steps as text. -/
def spanText (s : Step) (ticks : Int) : String :=
  match s.unit with
  | none => toString ticks ++ " generic time units"
  | some u => toString (ticks * s.count) ++ " " ++ u.plural

example : dateText (.one .day) 18263 = "2020-01-02" := by decide +kernel

example : dateText (.one .milli) (-1) = "1969-12-31T23:59:59.999" := by decide +kernel

end LinearSystems.Calendar
