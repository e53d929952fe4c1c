import LinearSystems.Comparison
import LinearSystems.Stopwatch

/-!
# Results

The envelope around what a backend computes: the payload of the method, named facts about the run,
what was timed, which backend ran, what it warns of, and the versions it ran with. An envelope takes
whatever it is given, and does not change.
-/

namespace LinearSystems

/-- The result of a computation. -/
structure Result (P : Type) where
  params : P
  info : Datum
  /-- Nothing if the run was not timed. -/
  timing : Datum
  backend : Datum
  warnings : List Datum
  provenance : Datum

namespace Result

/-- Whether some warning holds a datum. The first one that does decides, and where nothing is warned
    of the datum is not looked at. -/
def hasWarning {P : Type} (r : Result P) (part : Datum) : Except Fault Bool :=
  r.warnings.anyM fun w => w.contains part

/-- The result of a backend of this library. Durations are left open. -/
def ofRun {P : Type} (params : P) (info : List (String × Datum)) (sections : List String)
    (backend : String) (warnings : List String) : Result P where
  params := params
  info := .record info
  timing := .record ((Stopwatch.timed sections).map fun name => (name, .null))
  backend := .text backend
  warnings := warnings.map .text
  provenance := .record []

/-- The names of what was timed. -/
def timedNames {P : Type} (r : Result P) : List String :=
  match r.timing with
  | .record times => times.map (·.1)
  | _ => []

/-- The names of the provenance in ascending order. -/
def provenanceNames {P : Type} (r : Result P) : Except Fault (List Datum) := do
  Datum.sorted (← r.provenance.several)

/-- What the provenance tells of a name, or nothing. -/
def provenanceOf {P : Type} (r : Result P) (name : String) : Except Fault Datum :=
  match r.provenance with
  | .record versions => .ok ((versions.lookup name).getD .null)
  | d => .error (.misuse (.noMember d.ownerName "get"))

/-- An assignment to a field of an envelope is refused, whatever the field. -/
def assign {P : Type} (_ : Result P) (field : String) : Except Fault (Result P) :=
  .error (.misuse (.frozen field))

end Result

end LinearSystems
