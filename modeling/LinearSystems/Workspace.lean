import LinearSystems.Workspace.Handle

/-!
# Workspaces

A workspace keeps prepared systems and their solutions under names, and arrays in a caller's hands
under other names, and answers steps on them. All arrays lie in one memory. What is written to a
system or to a solution shows in later answers about it, and what is written to the matrix that a
system keeps for itself shows in the solutions of that system too. A step that fails changes
nothing, but for a residual that it had asked for before it failed, and for the part of a write that
came before the fault. A step on a name of the other kind fails with what the step misses first.
-/

namespace LinearSystems

/-- What a name stands for: a prepared system, whose arrays lie in cells from an origin on, or a
    solution. -/
inductive Entry where
  | prepared (origin : Nat) (P : Prepared)
  | solved (K : KeptSolution)

/-- The entry as its cells hold it. -/
def Entry.loaded (m : Memory) : Entry → Entry
  | .prepared origin P => .prepared origin (P.loaded m origin)
  | .solved K => .solved (K.loaded m)

/-- The named systems and solutions, the latest first, the memory of their arrays, and the arrays in
    a caller's hands. -/
structure Workspace where
  entries : List (Datum × Entry) := []
  memory : Memory := {}
  inHand : List (Datum × Handle) := []

/-- The steps on a workspace. -/
inductive WorkspaceStep where
  | prepare (name : Datum) (blueprint : Blueprint)
  /-- Prepares a system from what a caller has in hand. -/
  | prepareFrom (name : Datum) (supplies : BlueprintOf Supply)
  | state (name : Datum)
  | solve (name newName : Datum) (options : SolveOptions)
  /-- Shows a solution, with a text for the time in its summary. -/
  | solution (name : Datum) (time : String)
  | residual (name : Datum)
  | write (name member places value : Datum)
  | workingCopy (name value : Datum)
  /-- Assigns a field of a system or of a solution. -/
  | assign (name field value : Datum)
  /-- Assigns a field of what a solution was computed as. -/
  | assignResult (name field : Datum)
  | hasWarning (name part : Datum)
  | summary (name timing : Datum)
  | backend (name : Datum) (options : BackendOptions)
  /-- Makes an array of the caller's own. -/
  | make (newName : Datum) (a : TypedArray)
  /-- Takes an array in hand. -/
  | hold (name newName : Datum) (what : Handout)
  /-- Writes to an array in hand. -/
  | alter (name places value : Datum)

/-- What a step answers. -/
inductive WorkspaceAnswer where
  | state (P : Prepared)
  | unknowns (x : List Float)
  | solution (r : Report)
  | residual (r : Datum) (norm : Float)
  | written
  | copy (rows : List (List Float)) (P : Prepared)
  | truth (b : Bool)
  | text (s : String)
  | backend (r : BackendResult)

namespace Workspace

/-- What a name stands for, as its cells hold it. -/
def find (W : Workspace) (name : Datum) : Except Fault Entry := do
  name.checkKey
  match W.entries.find? fun entry => entry.1.same name with
  | some entry => return entry.2.loaded W.memory
  | none => throw (.misuse (.unknownKey name))

/-- Puts something under a name, in place of what was there. -/
def put (W : Workspace) (name : Datum) (e : Entry) : Workspace :=
  { W with entries := (name, e) :: W.entries.filter fun old => !old.1.same name }

/-- Puts a newly prepared system under a name, and its arrays into new cells. -/
def putPrepared (W : Workspace) (name : Datum) (P : Prepared) : Workspace :=
  { W.put name (.prepared W.memory.size P) with memory := W.memory.allocateAll P.arrays }

/-- Puts a prepared system under its name after a write to it, and its arrays into its cells. -/
def putWritten (W : Workspace) (name : Datum) (origin : Nat) (P : Prepared) : Workspace :=
  { W.put name (.prepared origin P) with memory := W.memory.writeAll origin P.arrays }

/-- Puts a solution under a name, and its arrays into their cells. -/
def putSolved (W : Workspace) (name : Datum) (K : KeptSolution) : Workspace :=
  { W.put name (.solved (K.saved W.memory).1) with memory := (K.saved W.memory).2 }

/-- The prepared system of a name, with its origin; what goes wrong with a solution is given. -/
def prepared (W : Workspace) (name : Datum) (wrong : Solution → Fault) :
    Except Fault (Nat × Prepared) := do
  match ← W.find name with
  | .prepared origin P => return (origin, P)
  | .solved K => throw (wrong K.solution)

/-- The solution of a name, of which the given member is needed. -/
def solved (W : Workspace) (name : Datum) (member : String) : Except Fault KeptSolution := do
  match ← W.find name with
  | .solved K => return K
  | .prepared _ P => throw (P.lacks member)

/-- Takes a step on the solution of a name, which may change it. -/
def onSolution {α : Type} (W : Workspace) (name : Datum) (member : String)
    (next : KeptSolution → KeptSolution × Except Fault α) : Workspace × Except Fault α :=
  match W.solved name member with
  | .ok K =>
    let (K, outcome) := next K
    (W.putSolved name K, outcome)
  | .error f => (W, .error f)

/-- Puts what was made under a new name, which something can be stored under. -/
def keeping {α : Type} (W : Workspace) (newName : Datum) (made : Except Fault α)
    (next : α → Workspace × WorkspaceAnswer) : Workspace × Except Fault WorkspaceAnswer :=
  match made, newName.checkKey with
  | .ok a, .ok () => ((next a).1, .ok (next a).2)
  | .ok _, .error f => (W, .error f)
  | .error f, _ => (W, .error f)

/-- Solves the prepared system of a name: the memory afterwards, and the solution. -/
def solveIn (W : Workspace) (name : Datum) (options : SolveOptions) :
    Memory × Except Fault KeptSolution :=
  match W.prepared name Solution.asSystem with
  | .error f => (W.memory, .error f)
  | .ok (origin, P) =>
    let (memory, outcome) := P.solveIn W.memory options
    (memory, outcome.map fun solution => { solution, origin })

/-- The solution of the prepared system of a name. -/
def solve (W : Workspace) (name : Datum) (options : SolveOptions) : Except Fault KeptSolution :=
  (W.solveIn name options).2

/-- Writes to a member of what a name stands for. -/
def write (W : Workspace) (name member places value : Datum) : Workspace × Except Fault Unit :=
  match W.find name, member.memberName with
  | .error f, _ => (W, .error f)
  | .ok _, .error f => (W, .error f)
  | .ok (.prepared origin P), .ok member =>
    let (P, outcome) := P.write member places value
    (W.putWritten name origin P, outcome)
  | .ok (.solved K), .ok member =>
    let (K, outcome) := K.write member places value
    (W.putSolved name K, outcome)

/-- Assigns a field of what a name stands for. A prepared system refuses it, whatever the field. -/
def assign (W : Workspace) (name field value : Datum) : Workspace × Except Fault Unit :=
  match W.find name, field.memberName with
  | .error f, _ => (W, .error f)
  | .ok _, .error f => (W, .error f)
  | .ok (.prepared ..), .ok field => (W, .error (.misuse (.frozen field)))
  | .ok (.solved K), .ok field =>
    let (K, outcome) := K.assign field value
    (W.putSolved name K, outcome)

/-- Calls the backend of what a name stands for. -/
def backend (W : Workspace) (name : Datum) (options : BackendOptions) :
    Workspace × Except Fault BackendResult :=
  match W.find name with
  | .error f => (W, .error f)
  | .ok (.solved K) => (W, K.solution.runBackend options)
  | .ok (.prepared _ P) =>
    let (memory, outcome) := P.runBackendIn W.memory options
    ({ W with memory }, outcome)

/-- The array in hand under a name. -/
def handle (W : Workspace) (name : Datum) : Except Fault Handle := do
  name.checkKey
  match W.inHand.find? fun entry => entry.1.same name with
  | some entry => return entry.2
  | none => throw (.misuse (.unknownKey name))

/-- What a caller hands over. -/
def supply (W : Workspace) : Supply → Except Fault Datum
  | .given d => .ok d
  | .inHand name => do
    let h ← W.handle name
    return .array (h.view.of (W.memory.read h.address))

/-- Puts an array in hand under a name, in place of what was there. -/
def putInHand (W : Workspace) (name : Datum) (h : Handle) : Workspace :=
  { W with inHand := (name, h) :: W.inHand.filter fun old => !old.1.same name }

/-- Puts an array of the caller's own under a name, and into a new cell. -/
def putMade (W : Workspace) (name : Datum) (a : TypedArray) : Workspace :=
  { W.putInHand name { address := W.memory.size } with memory := (W.memory.allocate a).1 }

/-- Hands out an array of what a name stands for. -/
def handOut (W : Workspace) (name : Datum) (what : Handout) : Workspace × Except Fault Handle :=
  match W.find name with
  | .error f => (W, .error f)
  | .ok (.prepared origin P) =>
    let (memory, outcome) := P.handOut W.memory origin what
    ({ W with memory }, outcome)
  | .ok (.solved K) =>
    let (K, asked) := K.ask what
    let W' := W.putSolved name K
    match asked with
    | .error f => (W', .error f)
    | .ok member =>
      let (memory, outcome) := (K.saved W.memory).1.handle W'.memory member
      ({ W' with memory }, outcome)

/-- Writes to an array in hand. -/
def alter (W : Workspace) (name places value : Datum) : Workspace × Except Fault Unit :=
  match W.handle name, places.several with
  | .error f, _ => (W, .error f)
  | .ok _, .error f => (W, .error f)
  | .ok h, .ok places =>
    if h.writable then
      Place.reading W places fun places =>
        let (a, outcome) := (W.memory.read h.address).assign places value
        ({ W with memory := W.memory.write h.address a }, outcome)
    else (W, .error (.misuse .readOnly))

/-- Takes one step: the workspace afterwards, and the answer or the fault. -/
def take (W : Workspace) : WorkspaceStep → Workspace × Except Fault WorkspaceAnswer
  | .prepare name blueprint =>
    W.keeping name blueprint.prepare fun P => (W.putPrepared name P, .state P)
  | .prepareFrom name supplies =>
    W.keeping name (do (← supplies.lookUp W.supply).prepare) fun P =>
      (W.putPrepared name P, .state P)
  | .state name =>
    (W, (W.prepared name Solution.asState).map fun (_, P) => .state P)
  | .solve name newName options =>
    let (memory, made) := W.solveIn name options
    let W := { W with memory }
    W.keeping newName made fun K => (W.putSolved newName K, .unknowns K.solution.x)
  | .solution name time =>
    let (W, outcome) := W.onSolution name "x" fun K => K.report time
    (W, outcome.map .solution)
  | .residual name =>
    let (W, outcome) := W.onSolution name Solution.residualMember KeptSolution.askResidual
    (W, outcome.map fun (r, norm) => .residual r norm)
  | .write name member places value =>
    let (W, outcome) := W.write name member places value
    (W, outcome.map fun _ => .written)
  | .workingCopy name value =>
    (W, do
      let (_, P) ← W.prepared name fun S => S.lacks "working_copy"
      return .copy (← P.workingCopy value) P)
  | .assign name field value =>
    let (W, outcome) := W.assign name field value
    (W, outcome.map fun _ => .written)
  | .assignResult name field =>
    (W, do
      let K ← W.solved name KeptSolution.resultField
      K.assignResult (← field.memberName)
      return .written)
  | .hasWarning name part =>
    (W, do
      let K ← W.solved name KeptSolution.resultField
      return .truth (← K.holdsWarning part))
  | .summary name timing =>
    (W, do
      let K ← W.solved name KeptSolution.resultField
      return .text (← K.summaryOf timing))
  | .backend name options =>
    let (W, outcome) := W.backend name options
    (W, outcome.map .backend)
  | .make newName a =>
    W.keeping newName (.ok a) fun a => (W.putMade newName a, .written)
  | .hold name newName what =>
    let (W, outcome) := W.handOut name what
    W.keeping newName outcome fun h => (W.putInHand newName h, .written)
  | .alter name places value =>
    let (W, outcome) := W.alter name places value
    (W, outcome.map fun _ => .written)

/-- Takes steps one after the other. -/
def takeAll (W : Workspace) : List WorkspaceStep → Workspace × List (Except Fault WorkspaceAnswer)
  | [] => (W, [])
  | step :: rest =>
    let (W', answer) := W.take step
    let (W'', answers) := W'.takeAll rest
    (W'', answer :: answers)

end Workspace

end LinearSystems
