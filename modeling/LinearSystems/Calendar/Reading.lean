import LinearSystems.Calendar.Date

/-!
# Reading dates

A date is read from the year on, as far as it is written: a month and a day follow after hyphens, a
time of day after a `T` or a blank, and parts of a second after a point. The finest part that is
written says which unit the text is counted in. A time of day may end in its distance from the time
at the prime meridian, which is taken off. A text that says nothing, or `NaT`, is no time.
-/

namespace LinearSystems.Calendar

/-- Why a text is no date. -/
inductive DateDefect where
  /-- A text of another form, with what was left to read. -/
  | form (left : Nat)
  /-- A part beyond its range. -/
  | range (part : String)
  deriving DecidableEq, Repr

/-- The text of a defect of a date. -/
def DateDefect.message (text : String) : DateDefect → String
  | .form left =>
    "Error parsing datetime string \"" ++ text ++ "\" at position "
      ++ toString (text.length - left)
  | .range part => part ++ " out of range in datetime string \"" ++ text ++ "\""

/-- The value of a digit. -/
def digitOf (c : Char) : Nat :=
  c.toNat - 48

/-- Takes a part of two digits within a range off the front. -/
def takePair (part : String) (low high : Nat) (text : List Char) :
    Except DateDefect (Nat × List Char) :=
  match text with
  | a :: b :: rest =>
    if a.isDigit && b.isDigit then
      let n := 10 * digitOf a + digitOf b
      if low ≤ n ∧ n ≤ high then .ok (n, rest) else .error (.range part)
    else .error (.form text.length)
  | _ => .error (.form text.length)

/-- Takes a part of one or two digits within a range off the front. -/
def takeOffsetPart (part : String) (high : Nat) (text : List Char) :
    Except DateDefect (Nat × List Char) :=
  match text with
  | a :: b :: rest =>
    if a.isDigit && b.isDigit then takePair part 0 high text
    else if a.isDigit then .ok (digitOf a, b :: rest)
    else .error (.form text.length)
  | [a] => if a.isDigit then .ok (digitOf a, []) else .error (.form 1)
  | [] => .error (.form 0)

/-- Takes an offset from the prime meridian, in minutes, off the front. -/
def takeOffset (text : List Char) : Except DateDefect (Int × List Char) :=
  match text with
  | 'Z' :: rest => .ok (0, rest)
  | sign :: rest =>
    if sign = '+' ∨ sign = '-' then do
      let (hours, rest) ← takeOffsetPart "Timezone hours offset" 23 rest
      let (minutes, rest) ←
        if rest.isEmpty then pure (0, rest)
        else
          takeOffsetPart "Timezone minutes offset" 59
            (if rest.head? = some ':' then rest.drop 1 else rest)
      let offset : Int := 60 * hours + minutes
      return (if sign = '-' then -offset else offset, rest)
    else .ok (0, text)
  | [] => .ok (0, [])

/-- A moment some minutes later. -/
def Moment.later (m : Moment) (minutes : Int) : Moment :=
  if minutes = 0 then m
  else
    .ofAttos (m.days * Moment.attosPerUnit .day + m.attosOfDay
      + minutes * Moment.attosPerUnit .minute)

/-- Ends a time of day: an offset, then blanks. -/
def finishTime (m : Moment) (u : TimeUnit) (text : List Char) :
    Except DateDefect (Moment × TimeUnit) := do
  let (offset, rest) ← takeOffset text
  let rest := rest.dropWhile Text.isPlainBlank
  if rest.isEmpty then return (m.later (-offset), u) else throw (.form rest.length)

/-- The parts of a second that digits after the point stand for: those after the eighteenth are left
    over. -/
def readFraction (m : Moment) (text : List Char) : Except DateDefect (Moment × TimeUnit) :=
  let digits := (text.takeWhile Char.isDigit).take 18
  let attos := digits.foldl (fun n c => 10 * n + digitOf c) 0 * Nat.pow 10 (18 - digits.length)
  let units := [TimeUnit.milli, .micro, .nano, .pico, .femto, .atto]
  finishTime { m with attos } (units.getD ((digits.length - 1) / 3) .atto)
    (text.drop digits.length)

/-- Reads the seconds of a time of day. -/
def readSeconds (m : Moment) (text : List Char) : Except DateDefect (Moment × TimeUnit) := do
  let (second, rest) ← takePair "Seconds" 0 59 text
  match rest with
  | '.' :: rest => readFraction { m with second } rest
  | rest => finishTime { m with second } .second rest

/-- Reads the minutes of a time of day and what follows them. -/
def readMinutes (m : Moment) (text : List Char) : Except DateDefect (Moment × TimeUnit) := do
  let (minute, rest) ← takePair "Minutes" 0 59 text
  match rest with
  | ':' :: rest => readSeconds { m with minute } rest
  | rest => finishTime { m with minute } .minute rest

/-- Reads a time of day. -/
def readTime (m : Moment) (text : List Char) : Except DateDefect (Moment × TimeUnit) := do
  let (hour, rest) ← takePair "Hours" 0 23 text
  match rest with
  | ':' :: rest => readMinutes { m with hour } rest
  | rest => finishTime { m with hour } .hour rest

/-- Reads a day and what follows it. -/
def readDay (m : Moment) (text : List Char) : Except DateDefect (Moment × TimeUnit) := do
  let (day, rest) ← takePair "Day" 1 (daysIn m.year m.month) text
  match rest with
  | [] => return ({ m with day }, .day)
  | c :: after =>
    if c = 'T' ∨ c = ' ' then readTime { m with day } after else throw (.form rest.length)

/-- Reads a month and what follows it. -/
def readMonth (year : Int) (text : List Char) : Except DateDefect (Moment × TimeUnit) := do
  let (month, rest) ← takePair "Month" 1 12 text
  match rest with
  | [] => return ({ year, month }, .month)
  | '-' :: after => readDay { year, month } after
  | _ => throw (.form rest.length)

/-- Reads a date, with the unit that it is written in. -/
def readDate (text : String) : Except DateDefect (Moment × TimeUnit) :=
  let chars := text.toList.dropWhile Text.isPlainBlank
  let body := if chars.head? = some '-' then chars.drop 1 else chars
  let digits := body.takeWhile Char.isDigit
  let n : Int := digits.foldl (fun n c => 10 * n + digitOf c) 0
  let year := if text.toList.head? = some '-' then -n else n
  match body.dropWhile Char.isDigit with
  | [] => if body.isEmpty then .error (.form 0) else .ok ({ year }, .year)
  | '-' :: rest => readMonth year rest
  | rest => .error (.form rest.length)

/-- Whether a text stands for no time. -/
def isNoTime (text : String) : Bool :=
  text.isEmpty || text.toList.map Char.toLower == "nat".toList

/-- The unit that a text is written in; none for no time, and for what cannot be read. -/
def unitOf (text : String) : Step :=
  if isNoTime text then .unspecified
  else
    match readDate text with
    | .ok (_, u) => .one u
    | .error _ => .unspecified

example : (readDate "2020-02-29T12:30").toOption =
    some ({ year := 2020, month := 2, day := 29, hour := 12, minute := 30 }, .minute) := by
  decide +kernel

example : (readDate "2019-02-29").toOption = none := by decide +kernel

end LinearSystems.Calendar
