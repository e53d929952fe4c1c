import LinearSystems.Magnitude
import LinearSystems.Workspace.Cells
import LinearSystems.Workspace.TimeText

/-!
# Solutions under a name

A solution that is kept under a name, with what was assigned to its fields and what was added to its
records. An assigned field stands in front of what the solution came with: where a step takes a
result, a system or a residual from it, it takes what was assigned, or misses in it what it asks of
it. A member that is computed cannot be assigned.
-/

namespace LinearSystems

/-- What was added to a record under several places taken together, the latest last. -/
abbrev Notes := List (List Datum × Datum)

namespace Notes

/-- Adds something under a key, in place of what was there. -/
def put (notes : Notes) (key : List Datum) (value : Datum) : Notes :=
  if notes.any fun note => Datum.sameItems note.1 key then
    notes.map fun note => if Datum.sameItems note.1 key then (note.1, value) else note
  else notes ++ [(key, value)]

/-- The text of a key: its places in parentheses, with a comma after a single one. -/
def keyText : List Datum → String
  | [d] => "(" ++ d.literal ++ ",)"
  | key => "(" ++ Datum.joined ", " (key.map Datum.literal) ++ ")"

end Notes

/-- A solution under a name. -/
structure KeptSolution where
  solution : Solution
  /-- Where the arrays of the system lie that was solved. -/
  origin : Nat
  /-- Where the arrays of the solution lie. -/
  places : List (Part × Nat) := []
  /-- Whether all fields were replaced at once, so that what the solution came with is gone. -/
  cleared : Bool := false
  /-- What was assigned to fields, the latest first. -/
  assigned : List (String × Datum) := []
  factNotes : Notes := []
  timeNotes : Notes := []

/-- What a field holds: what the solution came with, something that was assigned, or nothing. -/
inductive Held where
  | own
  | given (d : Datum)
  | absent

/-- What a solution shows: the solution, and what may differ from it by now. -/
structure Report where
  solution : Solution
  residual : Datum
  norm : Float
  summary : String
  brief : String
  factNotes : Notes
  timeNotes : Notes

namespace KeptSolution

/-- The field that holds what was computed. -/
def resultField : String := "_result"

/-- The field that holds the system. -/
def systemField : String := "_design"

/-- The field that holds the residual of an elimination once it has been asked for. -/
def residualField : String := "_residual"

/-- The part of a system that tells its size. -/
def sizePart : String := "n"

/-- What a field holds. -/
def held (K : KeptSolution) (field : String) : Held :=
  match K.assigned.lookup field with
  | some d => .given d
  | none => if K.cleared then .absent else .own

/-- A part can be taken from what a field holds: from what the solution came with, but not from
    anything that was assigned. -/
def checkPart (K : KeptSolution) (field part : String) : Except Fault Unit :=
  match K.held field with
  | .own => .ok ()
  | .given d => .error (.misuse (.noMember d.ownerName part))
  | .absent => .error (K.solution.lacks field)

/-- What the solution does can be done, unless something else was assigned in its place. -/
def checkAction (K : KeptSolution) : Except Fault Unit :=
  match K.assigned.lookup Solution.action with
  | some d => .error (.misuse (.notCallable d.ownerName))
  | none => .ok ()

/-- The residual that was assigned to an elimination. -/
def givenResidual? (K : KeptSolution) : Option Datum :=
  match K.solution with
  | .gauss _ => K.assigned.lookup residualField
  | _ => none

/-- Whether the residual of an elimination has been asked for. -/
def hasResidual (K : KeptSolution) : Bool :=
  match K.solution with
  | .gauss S => S.kept.isSome
  | _ => false

/-- The residual and the largest magnitude in it can be taken. -/
def checkResidual (K : KeptSolution) : Except Fault Unit := do
  if K.givenResidual?.isNone && !K.hasResidual then
    K.checkPart systemField K.solution.residualPart
    K.checkPart resultField Solution.payload

/-- The residual as it is shown. -/
def residual (K : KeptSolution) : Datum :=
  K.givenResidual?.getD (.ofFloats K.solution.residual)

/-- The largest magnitude in the residual as it is shown. -/
def residualNorm (K : KeptSolution) : Except Fault Float :=
  match K.givenResidual? with
  | some d => d.largestMagnitude
  | none => .ok K.solution.residualNorm

/-- Keeps the residual once it has been asked for, unless another one was assigned. -/
def keepResidual (K : KeptSolution) : KeptSolution :=
  if K.givenResidual?.isSome then K else { K with solution := K.solution.keepResidual }

/-- Asks for the residual, and goes on once it is kept. -/
def asking {α : Type} (K : KeptSolution) (next : KeptSolution → Except Fault α) :
    KeptSolution × Except Fault α :=
  match K.checkResidual with
  | .ok () => (K.keepResidual, next K.keepResidual)
  | .error f => (K, .error f)

/-- The residual, and the largest magnitude in it. -/
def askResidual (K : KeptSolution) : KeptSolution × Except Fault (Datum × Float) :=
  K.asking fun K => do return (K.residual, ← K.residualNorm)

/-- What the solution shows without its residual can be taken. -/
def checkShown (K : KeptSolution) : Except Fault Unit := do
  K.checkPart resultField Solution.payload
  if K.solution matches .gauss _ then
    K.checkPart systemField sizePart

/-- Everything that the solution shows, the time of its summary given. -/
def report (K : KeptSolution) (time : String) : KeptSolution × Except Fault Report :=
  match K.checkShown with
  | .error f => (K, .error f)
  | .ok () =>
    K.asking fun K => do
      let norm ← K.residualNorm
      K.checkAction
      return {
        solution := K.solution
        residual := K.residual
        norm
        summary := K.solution.summaryWith norm (some time)
        brief := K.solution.briefWith norm
        factNotes := K.factNotes
        timeNotes := K.timeNotes }

/-- The result that the solution came with is still there to be copied. -/
def checkResult (K : KeptSolution) : Except Fault Unit :=
  match K.held resultField with
  | .own => .ok ()
  | .given _ => .error (.misuse .notCopyable)
  | .absent => .error (K.solution.lacks resultField)

/-- The summary of a copy with a record of times. A residual that is not kept is taken for this
    once. -/
def summaryOf (K : KeptSolution) (timing : Datum) : Except Fault String := do
  K.checkResult
  K.checkAction
  K.checkPart systemField sizePart
  K.checkResidual
  let norm ← K.residualNorm
  return K.solution.summaryWith norm (← timing.timeText?)

/-- Whether some warning holds a datum. -/
def holdsWarning (K : KeptSolution) (part : Datum) : Except Fault Bool := do
  K.checkPart resultField "has_warning"
  K.solution.holdsWarning part

/-- Assigning to a part of what was computed is refused. -/
def assignResult (K : KeptSolution) (field : String) : Except Fault Unit := do
  K.checkPart resultField Solution.payload
  throw (.misuse (.frozen field))

/-- The solution with something assigned to a field in place of what it held. -/
def withField (K : KeptSolution) (field : String) (d : Datum) : KeptSolution :=
  { K with assigned := (field, d) :: K.assigned.filter fun old => old.1 != field }

/-- The elimination without a kept residual, and without an assigned one. -/
def withoutResidual (K : KeptSolution) (S : Gauss.Solution) : KeptSolution :=
  { K with
    solution := .gauss { S with kept := none }
    assigned := K.assigned.filter fun old => old.1 != residualField }

/-- The solution with all its fields replaced. -/
def withFields (K : KeptSolution) (fields : List (String × Datum)) : KeptSolution :=
  let cleared := { K with cleared := true, assigned := fields }
  match K.solution, fields.lookup residualField with
  | .gauss S, some .null => { cleared.withoutResidual S with cleared := true }
  | .gauss S, none => { cleared.withoutResidual S with cleared := true }
  | _, _ => cleared

/-- Assigns a field. What is computed cannot be assigned, and neither can what every object has
    for itself. -/
def assign (K : KeptSolution) (field : String) (d : Datum) : KeptSolution × Except Fault Unit :=
  if (K.solution.members.lookup field).isSome then
    (K, .error (.misuse (.computed K.solution.typeName field)))
  else
    match field, d, K.solution with
    | "__class__", d, _ => (K, .error (.misuse (.noClass d.ownerName)))
    | "__weakref__", _, S => (K, .error (.misuse (.notAssignable S.typeName field)))
    | "__dict__", .record fields, _ => (K.withFields fields, .ok ())
    | "__dict__", d, _ => (K, .error (.misuse (.noFields d.ownerName)))
    | "_residual", .null, .gauss S => (K.withoutResidual S, .ok ())
    | field, d, _ => (K.withField field d, .ok ())

/-- A member that is taken from what was computed, from the system or from the residual can be
    looked at. A residual is kept by then. -/
def checkSource (K : KeptSolution) : MemberSource → KeptSolution × Except Fault Unit
  | .result part => (K, K.checkPart resultField part)
  | .system part => (K, K.checkPart systemField part)
  | .residual => K.asking fun _ => .ok ()
  | .residualNorm => K.asking fun K => K.residualNorm.map fun _ => ()

/-- Writes to an array of the solution. A residual that was assigned is written to as it is. -/
def writeArray (K : KeptSolution) (array : String) (places : List Datum) (value : Datum) :
    KeptSolution × Except Fault Unit :=
  Place.reading K places fun places =>
    let (S, outcome) := K.solution.assignArray array places value
    ({ K with solution := S }, outcome)

/-- Adds something to a record of the solution. -/
def addNote (K : KeptSolution) (record : String) (key : List Datum) (value : Datum) :
    KeptSolution × Except Fault Unit :=
  match key.forM Datum.checkKey with
  | .error f => (K, .error f)
  | .ok () =>
    (if record = Solution.facts then { K with factNotes := K.factNotes.put key value }
      else { K with timeNotes := K.timeNotes.put key value }, .ok ())

/-- Writes to something that was assigned: what it is afterwards. -/
def writeGiven (d : Datum) (places : List Datum) (value : Datum) : Datum × Except Fault Unit :=
  match d with
  | .list _ => (d, .error (.misuse (.listPlace "tuple")))
  | .record _ => (d, places.forM Datum.checkKey)
  | .array a => Place.reading d places fun places =>
    let (a, outcome) := a.assign places value
    (.array a, outcome)
  | .objects shape items => Place.reading d places fun places =>
    Datum.assignObjects shape items places value
  | d => (d, .error (.misuse (.notWritable d.typeName)))

/-- The members that a solution keeps for itself. -/
def keptMembers (K : KeptSolution) : List (String × Member) :=
  let residual := match K.solution with
    | .gauss S => [(residualField, Member.array.orAbsent S.kept)]
    | _ => []
  let fields := [(systemField, Member.plain K.solution.systemTypeName),
    (resultField, Member.plain "Result")]
  (if K.cleared then [] else fields) ++ residual ++ [(Solution.action, .action)]

/-- Writes to a field that was assigned, or else to what the solution keeps for itself. The field is
    looked up before the places are taken. -/
def writeField (K : KeptSolution) (field : String) (places : Except Fault (List Datum))
    (value : Datum) : KeptSolution × Except Fault Unit :=
  match K.assigned.lookup field, (K.keptMembers ++ Member.general).lookup field, places with
  | none, none, _ => (K, .error (K.solution.lacks field))
  | _, _, .error f => (K, .error f)
  | some d, _, .ok places =>
    let (d, outcome) := writeGiven d places value
    (K.withField field d, outcome)
  | none, some .array, .ok places => K.writeArray Solution.residualMember places value
  | none, some m, .ok places => (K, m.checkWrite places)

/-- Writes to a member that the solution shows. -/
def writeShown (K : KeptSolution) (name : String) (m : Member) (places : List Datum)
    (value : Datum) : KeptSolution × Except Fault Unit :=
  match m with
  | .array =>
    if name = Solution.residualMember ∧ K.givenResidual?.isSome then
      K.writeField residualField (.ok places) value
    else K.writeArray name places value
  | .record => K.addNote name places value
  | m => (K, m.checkWrite places)

/-- Writes to a member, which is looked at before the places and the value. -/
def write (K : KeptSolution) (member : String) (places value : Datum) :
    KeptSolution × Except Fault Unit :=
  match K.solution.members.lookup member with
  | none => K.writeField member places.several value
  | some (m, source) =>
    match K.checkSource source, places.several with
    | (K, .error f), _ => (K, .error f)
    | (K, .ok ()), .error f => (K, .error f)
    | (K, .ok ()), .ok places => K.writeShown member m places value

/-- The solution as its cells hold it. -/
def loaded (K : KeptSolution) (m : Memory) : KeptSolution :=
  { K with solution := K.solution.loaded m K.origin K.places }

/-- Puts the arrays of the solution into their cells, or into new ones. -/
def saved (K : KeptSolution) (m : Memory) : KeptSolution × Memory :=
  let (m, places) := m.save K.places K.solution.parts
  ({ K with places }, m)

end KeptSolution

end LinearSystems
