import LinearSystems.Datum.Same

/-!
# Stopwatch

Which sections of a computation were timed. Durations are not modelled: what a stopwatch shows here
is the order in which sections were first completed. A section counts as completed also when its
steps end in a failure, and an inner section is completed before the one around it. A section may be
named by anything that something can be stored under.
-/

namespace LinearSystems

/-- The state of a stopwatch: whether it was ever started, whether it was ever stopped after that,
    and the sections completed so far, each once. -/
structure Stopwatch where
  started : Bool := false
  stopped : Bool := false
  completed : List Datum := []

namespace Stopwatch

/-- The name under which the whole time is shown. -/
def totalName : String := "total_seconds"

/-- Starts the watch; it may be started again. -/
def start (w : Stopwatch) : Stopwatch :=
  { w with started := true }

/-- Stops the watch, which has to be started before. -/
def stop (w : Stopwatch) : Except Fault Stopwatch :=
  if w.started then .ok { w with stopped := true } else .error (.misuse .stopBeforeStart)

/-- Completes a section. A section that was completed before keeps its place. -/
def complete (w : Stopwatch) (name : Datum) : Stopwatch :=
  if w.completed.any fun old => old.same name then w
  else { w with completed := w.completed ++ [name] }

/-- What is shown: the whole time and then each section, in order of first completion. -/
def shown (w : Stopwatch) : List Datum :=
  .text totalName :: w.completed.filter fun name => !name.same (.text totalName)

/-- What a stopped watch shows. -/
def result (w : Stopwatch) : Except Fault (List Datum) :=
  if w.stopped then .ok w.shown else .error (.misuse .resultBeforeStop)

/-- What can be done with a stopwatch. A section has steps of its own and may end in a failure after
    them. -/
inductive Step where
  | start
  | stop
  | result
  | section (name : Datum) (inner : List Step) (raised : Option Fault)
  /-- Something taken for an action by its name. -/
  | call (name : String)
  /-- Something that is no step. -/
  | refused (f : Fault)

instance : Inhabited Step := ⟨.start⟩

/-- The name of the action that times a section, which cannot be taken by itself. -/
def sectionAction : String := "section"

/-- The step of a name. -/
def Step.named : String → Step
  | "start" => .start
  | "stop" => .stop
  | "result" => .result
  | name => .call name

/-- The type of a time that was taken or not. -/
def timeType (taken : Bool) : String :=
  if taken then "float" else Datum.null.typeName

/-- What a watch shows besides its actions, by the names of the types. -/
def holdings (w : Stopwatch) : List (String × String) :=
  [("_sections", "dict"), ("_start_time", timeType w.started), ("_total", timeType w.stopped),
    ("__doc__", "str"), ("__module__", "str"), ("__dict__", "dict"),
    ("__weakref__", Datum.null.typeName)]

/-- What goes wrong with something that is taken for an action. -/
def refusal (w : Stopwatch) (name : String) : Fault :=
  .misuse <|
    if name = sectionAction then .missingArguments ("Timer." ++ name) ["name"]
    else
      match w.holdings.lookup name with
      | some typeName => .notCallable typeName
      | none => .noMember "Timer" name

/-- What a step answers. -/
inductive Outcome where
  | done
  | shown (names : List Datum)
  | inner (outcomes : List Outcome)
  | fault (f : Fault)

/-- How a section ends: nothing can be stored under some names, and a failure takes the place of
    what the steps of the section answer. -/
def ending (name : Datum) (outcomes : List Outcome) (raised : Option Fault) : Outcome :=
  match name.checkKey, raised with
  | .error f, _ => .fault f
  | .ok (), some f => .fault f
  | .ok (), none => .inner outcomes

mutual

/-- Takes one step. A failure is the answer of the step that meets it and stops nothing else. -/
def take (w : Stopwatch) : Step → Stopwatch × Outcome
  | .start => (w.start, .done)
  | .stop =>
    match w.stop with
    | .ok w' => (w', .done)
    | .error f => (w, .fault f)
  | .result =>
    match w.result with
    | .ok names => (w, .shown names)
    | .error f => (w, .fault f)
  | .section name inner raised =>
    let (w', outcomes) := takeAll w inner
    (if name.checkKey.isOk then w'.complete name else w', ending name outcomes raised)
  | .call name => (w, .fault (w.refusal name))
  | .refused f => (w, .fault f)

/-- Takes steps one after the other. -/
def takeAll (w : Stopwatch) : List Step → Stopwatch × List Outcome
  | [] => (w, [])
  | step :: rest =>
    let (w', outcome) := take w step
    let (w'', outcomes) := takeAll w' rest
    (w'', outcome :: outcomes)

end

/-- What a watch shows after a computation whose sections are completed one after the other. -/
def timed (sections : List String) : List String :=
  ((sections.map .text).foldl complete { started := true, stopped := true }).shown.map Datum.shown

end Stopwatch

end LinearSystems
