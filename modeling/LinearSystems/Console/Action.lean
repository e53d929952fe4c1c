import LinearSystems.Arguments
import LinearSystems.Console.Program

/-!
# Single actions on a console

The questions and the lines that the program is made of, each by itself. An action that is asked for
by its name takes anything as an argument; what it cannot use is a fault when it comes to it.
-/

namespace LinearSystems.Console

/-- The single actions. -/
inductive Action where
  | ask (prompt : Datum)
  | write (line : Option Datum)
  | readRows (bound width : Datum)
  | readValue (prompt : Datum)

namespace Action

/-- An action that does not get as many arguments as it takes, the console among them. -/
def miscalled (action : String) (needed optional : List String) (given : Nat) :
    Except Fault Action := do
  checkArguments action needed optional (given + 1)
  return .write none

/-- The action of a name with its arguments. -/
def named (name : String) (arguments : List Datum) : Except Fault Action :=
  match name, arguments with
  | "ask", [prompt] => .ok (.ask prompt)
  | "ask", given => miscalled "Console.ask" ["self", "prompt"] [] given.length
  | "write", [] => .ok (.write none)
  | "write", [line] => .ok (.write (some line))
  | "write", given => miscalled "Console.write" ["self"] ["text"] given.length
  | "read_rows", [bound, width] => .ok (.readRows bound width)
  | "read_rows", given => miscalled name ["console", "n_rows", "width"] [] given.length
  | "read_value", [prompt] => .ok (.readValue prompt)
  | "read_value", given => miscalled name ["console", "prompt"] [] given.length
  | name, _ => .error (.misuse (.unknownKey (.text name)))

end Action

/-- What an action answers. -/
inductive Reply where
  | nothing
  | line (text : String)
  | rows (rows : List (List Float))
  | number (x : Float)

/-- An action as a dialogue. -/
def Action.dialogue : Action → Dialogue Reply
  | .ask prompt => do return .line (← Dialogue.question (← .ofExcept (promptOf prompt)))
  | .write line => do
    Dialogue.tell ((line.map Datum.shown).getD "")
    return .nothing
  | .readRows bound width => do return .rows (← readRowsBelow bound width)
  | .readValue prompt => do return .number (← Console.readValue (← .ofExcept (promptOf prompt)))

end LinearSystems.Console
