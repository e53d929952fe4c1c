import LinearSystems.Console.CommandLine

/-!
# The program

The interactive program on a terminal: it conducts the dialogue line by line, so that a question
stands on the screen before its answer is read.
-/

namespace LinearSystems.Console

/-- Reads one line without its end; none at the end of the input. -/
def nextLine : IO (Option String) := do
  let line ← (← IO.getStdin).getLine
  if line.isEmpty then return none
  else return some (String.ofList (line.toList.reverse.dropWhile (· = '\n')).reverse)

/-- Asks a question on the terminal until there is no complaint about the answer. -/
partial def askTerminal (prompt : String) (complaint : String → Option String) :
    IO (Option String) := do
  IO.print prompt
  (← IO.getStdout).flush
  match ← nextLine with
  | none => return none
  | some line =>
    match complaint (stripped line) with
    | none => return some (stripped line)
    | some c =>
      IO.println c
      askTerminal prompt complaint

/-- Conducts a dialogue on the terminal. -/
def conductTerminal {α : Type} : Dialogue α → IO (Except Fault α)
  | .done a => return .ok a
  | .fail f => return .error f
  | .say line next => do
    IO.println line
    conductTerminal next
  | .ask prompt complaint next => do
    match ← askTerminal prompt complaint with
    | none => return .error .endOfInput
    | some answer => conductTerminal (next answer)

/-- Runs the program on the terminal and gives its exit code. A fault that escapes the program is
    told apart from its output. -/
def runTerminal (selection : Selection) : IO UInt32 := do
  match ← conductTerminal selection.dialogue with
  | .ok code => return code.toUInt32
  | .error f =>
    if isReported f then IO.print (errorLine f).written
    else IO.eprint (errorLine f).written
    return 1

end LinearSystems.Console

open LinearSystems.Console in
/-- The program: takes its arguments, asks for a system and shows the solution. -/
def main (arguments : List String) : IO UInt32 := do
  match parseArguments arguments with
  | .usageError => return 2
  | .version =>
    IO.print versionText
    return 0
  | .help =>
    IO.print helpText
    return 0
  | .run selection => runTerminal selection
