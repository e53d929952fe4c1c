import LinearSystems.Comparison
import LinearSystems.Datum.Scalar
import LinearSystems.FaultClass
import LinearSystems.Numeral
import LinearSystems.Text.Blank

/-!
# What is read from a line

The four things that a line of input can be asked for: a real number, a size, a count, and a row of
real numbers. What is no text yet is taken for the number that it is, if it is one.
-/

namespace LinearSystems.Console

/-- A real number. -/
def readReal (text : String) : Except BadInput Float :=
  match Numeral.real? text with
  | some x => .ok x
  | none => .error (.notNumber (.text text))

/-- A whole number. -/
def readWhole (text : String) : Except BadInput Int :=
  match Numeral.whole? text with
  | some i => .ok i
  | none => .error (.notWhole (.text text))

/-- A size is at least one. -/
def checkSize (i : Int) : Except BadInput Nat :=
  if i < 1 then .error (.sizeTooSmall i) else .ok i.toNat

/-- A count is at least zero. -/
def checkCount (i : Int) : Except BadInput Nat :=
  if i < 0 then .error (.negativeCount i) else .ok i.toNat

/-- A size, which is at least one. -/
def readSize (text : String) : Except BadInput Nat := do
  checkSize (← readWhole text)

/-- A count, which is at least zero. -/
def readCount (text : String) : Except BadInput Nat := do
  checkCount (← readWhole text)

/-- What is read from a line, among everything that can go wrong. -/
def reported {α : Type} : Except BadInput α → Except Fault α
  | .ok a => .ok a
  | .error e => .error (.badInput e)

/-- A row of as many real numbers as expected. The count is looked at before any number. -/
def readRow (expected : Datum) (line : String) : Except Fault (List Float) := do
  let words := Text.words line.toList
  if ← (Datum.number (.whole words.length)).differs expected then
    throw (.badInput (.tokenCount expected words.length))
  words.mapM fun word => reported (readReal (String.ofList word))

/-- A number from anything: what is no number for its value is told as bad input, and other faults
    stay what they are. -/
def understood {α : Type} (bad : BadInput) : Except Fault α → Except Fault α
  | .ok a => .ok a
  | .error f => .error (if f.faultClass == .value then .badInput bad else f)

/-- A real number from anything. -/
def realOf (d : Datum) : Except Fault Float :=
  understood (.notNumber d) d.realNumber

/-- A whole number from anything: a real number loses its fraction. -/
def wholeOf (d : Datum) : Except Fault Int :=
  understood (.notWhole d) d.wholeNumber

/-- A size from anything. -/
def sizeOf (d : Datum) : Except Fault Nat := do
  reported (checkSize (← wholeOf d))

/-- A count from anything. -/
def countOf (d : Datum) : Except Fault Nat := do
  reported (checkCount (← wholeOf d))

/-- A row from anything, which has to be a line. -/
def rowOf (expected d : Datum) : Except Fault (List Float) :=
  match d with
  | .text line => readRow expected line
  | d => .error (.misuse (.noMember d.ownerName "split"))

end LinearSystems.Console
