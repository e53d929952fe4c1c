import LinearSystems.Console.Call
import LinearSystems.Console.Reading
import LinearSystems.Datum.Sum
import LinearSystems.FaultClass

/-!
# The interactive program

One dialogue for each method: it asks for the size of a system and then for its numbers, has the
system solved, and says the solution. Without a chosen method a menu comes first. A bad row of a
matrix is asked for again; any other bad answer, a fault of a solver and the end of the input end
the program with an error line. A size is not looked at beyond being at least one, so one that is
too large to be written or to be laid out is a fault that escapes the program.
-/

namespace LinearSystems.Console

/-- The name of a method. -/
def Method.name : Method → String
  | .gauss => "gauss"
  | .jacobi => "jacobi"
  | .thomas => "thomas"

/-- The method of a name. -/
def Method.ofName? (name : String) : Option Method :=
  [Method.gauss, .jacobi, .thomas].find? fun m => m.name == name

/-- The method of an answer to the menu. -/
def Method.ofChoice? : String → Option Method
  | "1" => some .gauss
  | "2" => some .jacobi
  | "3" => some .thomas
  | _ => none

/-- The complaint about a row that cannot be read. -/
def rowComplaint (width : Datum) (line : String) : Option String :=
  match readRow width line with
  | .error (.badInput e) => some ("Invalid row (" ++ e.message ++ "). Try again.")
  | _ => none

/-- Asks for rows of numbers, each until it can be read. The rows read so far come last first. -/
def readRowsFrom (width : Datum) : (count : Nat) → (rows : List (List Float)) →
    Dialogue (List (List Float))
  | 0, rows => .done rows.reverse
  | count + 1, rows =>
    .ask ("Row " ++ toString (rows.length + 1) ++ ": ") (rowComplaint width) fun line =>
      match readRow width line with
      | .ok row => readRowsFrom width count (row :: rows)
      | .error f => .fail f

/-- Asks for a number of rows. -/
def readRows (count width : Nat) : Dialogue (List (List Float)) :=
  readRowsFrom (.number (.whole width)) count []

/-- Asks for rows as long as their count is below a bound. -/
def readRowsBelow (bound width : Datum) : Dialogue (List (List Float)) := do
  readRowsFrom width (← .ofExcept bound.countBelow) []

/-- Asks for one real number. -/
def readValue (prompt : String) : Dialogue Float :=
  .inquire prompt readReal

/-- Asks for the entries of a vector by their numbers, from `first` on. The values read so far come
    last first. -/
def readEntriesFrom (name : String) (first : Nat) : (count : Nat) → (values : List Float) →
    Dialogue (List Float)
  | 0, values => .done values.reverse
  | count + 1, values =>
    .ask (name ++ "[" ++ toString (first + values.length) ++ "] = ") (fun _ => none) fun line =>
      match readReal line with
      | .ok x => readEntriesFrom name first count (x :: values)
      | .error e => .fail (.badInput e)

/-- Asks for a number of entries of a vector. -/
def readEntries (name : String) (first count : Nat) : Dialogue (List Float) :=
  readEntriesFrom name first count []

/-- A question that is a text; another one is not asked. -/
def promptOf : Datum → Except Fault String
  | .text prompt => .ok prompt
  | d => .error (.unreadable (.noText d.ownerName))

/-- The entries of an array, numbered from a first number on, as far as they have numbers and are
    numbers themselves. -/
def entryLines (start : Datum) (t : Tensor) : Except Fault (List String) :=
  match t.shape with
  | [] => .error (.unreadable .noElements)
  | n :: rest =>
    (List.range n).mapM fun i : Nat => do
      let label ← start.plus .right i
      if !rest.isEmpty then
        throw (.unreadable (.noPlaces "numpy.ndarray"))
      return Summary.entry label.interpolated (t.entries.getD i 0.0)

/-- The way of pivoting of an answer. -/
def readPivoting (text : String) : Except BadInput Gauss.Pivoting := do
  let k ← readCount text
  if k = 1 then return .diagonal
  else if k = 2 then return .complete
  else throw (.pivotingChoice k)

/-- The number from which on places cannot be counted: a count is a word with a sign. -/
def countingLimit : Nat := Nat.pow 2 63

/-- The size from which on the bytes of a vector cannot be counted, of which each place takes up
    eight. -/
def storageLimit : Nat := countingLimit / 8

/-- Lays out vectors of a size before their entries are asked for. How much storage a machine has
    beyond that is left open. -/
def layOut (n : Nat) : Except Fault Unit :=
  if countingLimit ≤ n then .error (.misuse .beyondCounting)
  else if storageLimit ≤ n then .error (.misuse .beyondStorage)
  else .ok ()

/-- The line that begins the dialogue of a method. -/
def Method.title : Method → String
  | .gauss => "\nGaussian elimination"
  | .jacobi => "\nJacobi (simple) iteration"
  | .thomas => "\nThomas algorithm for tridiagonal systems"

/-- The question for the size of a system. -/
def Method.sizePrompt : Method → String
  | .gauss => "Number of equations (n): "
  | .jacobi => "Number of equations (n): "
  | .thomas => "System size (n): "

/-- What a size is used for right after it was read: elimination writes the length of a row, the
    sweep lays out its vectors. -/
def Method.prepare : Method → (n : Nat) → Except Fault Unit
  | .gauss, n => (Numeral.written (n + 1)).map fun _ => ()
  | .jacobi, _ => .ok ()
  | .thomas, n => layOut n

/-- Asks for what elimination needs. -/
def gatherGauss (n : Nat) : Dialogue Call := do
  .tell ("Enter the augmented matrix [A|b] (" ++ toString (n + 1) ++ " numbers per row):")
  let rows ← readRows n (n + 1)
  .tellAll ["\nPivoting strategy:", "1 - No pivoting", "2 - Complete pivoting (whole submatrix)"]
  let mode ← .inquire "Your choice (1/2): " readPivoting
  return .gauss rows (mode == .complete)

/-- Asks for what the iteration needs. -/
def gatherJacobi (n : Nat) : Dialogue Call := do
  .tell ("\nEnter the matrix A (" ++ toString n ++ " rows of " ++ toString n ++ " numbers):")
  let A ← readRows n n
  .tell ("\nEnter the right-hand side b (" ++ toString n ++ " numbers):")
  let b ← .ofExcept (readRow (.number (.whole n)) (← .question ""))
  let epsilon ← readValue "\nTolerance epsilon (e.g. 0.001): "
  let maxIterations ← .inquire "Maximum number of iterations: " readCount
  let check ← .question "Check convergence condition ||alpha|| < 1? (1 - yes, 0 - no): "
  return .jacobi A b epsilon maxIterations (check == "1")

/-- Asks for what the tridiagonal sweep needs. The corners are not asked for. -/
def gatherThomas (n : Nat) : Dialogue Call := do
  .tell "\nMain diagonal d[i] (i=0..n-1):"
  let d ← readEntries "d" 0 n
  .tell "\nSub-diagonal c[i] (i=1..n-1):"
  let c ← readEntries "c" 1 (n - 1)
  .tell "\nSuper-diagonal e[i] (i=0..n-2):"
  let e ← readEntries "e" 0 (n - 1)
  .tell "\nRight-hand side b[i] (i=0..n-1):"
  let b ← readEntries "b" 0 n
  return .thomas (0.0 :: c) d (e ++ [0.0]) b

/-- Asks for what a method needs beside the size. -/
def Method.gather : Method → (n : Nat) → Dialogue Call
  | .gauss => gatherGauss
  | .jacobi => gatherJacobi
  | .thomas => gatherThomas

/-- Asks for a whole system, its size first. -/
def Method.questions (m : Method) : Dialogue Call := do
  .tell m.title
  let n ← .inquire m.sizePrompt readSize
  .ofExcept (m.prepare n)
  m.gather n

/-- The dialogue of a method. -/
def Method.dialogue (m : Method) : Dialogue Unit := do
  (← m.questions).perform

/-- The lines of the menu. -/
def menu : List String :=
  ["Solving systems of linear equations",
    String.ofList (List.replicate 36 '-'),
    "Choose a method:",
    "1 - Gaussian elimination (no pivoting / complete pivoting)",
    "2 - Jacobi iteration",
    "3 - Thomas algorithm for tridiagonal systems"]

/-- The dialogue of the whole program, which ends with an exit code. -/
def program (method : Option Method) : Dialogue Nat := do
  match method with
  | some m =>
    m.dialogue
    return 0
  | none =>
    .tellAll menu
    let choice ← .question "Your choice (1/2/3): "
    match Method.ofChoice? choice with
    | none =>
      .tell "Invalid choice."
      return 1
    | some m =>
      m.dialogue
      return 0

/-- Whether the program ends a fault with an error line: a fault of a solver, a bad answer, or the
    end of the input. -/
def isReported (f : Fault) : Bool :=
  f.isSolverFault || f.faultClass == .badInput || f.faultClass == .endOfInput

/-- How the program went: what it wrote, and its exit code unless a fault escaped it. -/
structure Conduct where
  said : List Utterance
  ending : Except Fault Nat

/-- The error line that ends the program. -/
def errorLine (f : Fault) : Utterance :=
  .line ("Error: " ++ f.message)

/-- Ends a transcript: a reported fault becomes an error line and exit code one. -/
def Transcript.close (t : Transcript Nat) : Conduct :=
  match t.ending with
  | .ok code => { said := t.said, ending := .ok code }
  | .error f =>
    if isReported f then { said := t.said ++ [errorLine f], ending := .ok 1 }
    else { said := t.said, ending := .error f }

/-- Runs a dialogue of the program on an input. -/
def runDialogue (d : Dialogue Nat) (input : String) : Conduct :=
  (d.conduct (lines input)).close

end LinearSystems.Console
