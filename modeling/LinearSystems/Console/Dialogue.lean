import LinearSystems.Fault
import LinearSystems.Text.Blank

/-!
# Dialogues

A dialogue is what a program says and asks on a console, and what it makes of the answers, as data.
A question may be repeated: a complaint about an answer is said and the same question is asked
again, as long as there is input. A dialogue is conducted on a list of lines by `Dialogue.conduct`,
which ends for every input, and in the same way on a terminal.
-/

namespace LinearSystems.Console

/-- A dialogue that ends with an answer or a fault. -/
inductive Dialogue (α : Type) where
  | done (answer : α)
  | fail (f : Fault)
  | say (line : String) (next : Dialogue α)
  | ask (prompt : String) (complaint : String → Option String) (next : String → Dialogue α)

namespace Dialogue

/-- Goes on with the answer of a dialogue. -/
def andThen {α β : Type} (d : Dialogue α) (f : α → Dialogue β) : Dialogue β :=
  match d with
  | .done a => f a
  | .fail e => .fail e
  | .say line next => .say line (next.andThen f)
  | .ask prompt complaint next => .ask prompt complaint fun line => (next line).andThen f

instance : Monad Dialogue where
  pure := .done
  bind := andThen

/-- Says one line. -/
def tell (line : String) : Dialogue Unit :=
  .say line (.done ())

/-- Says several lines. -/
def tellAll : List String → Dialogue Unit
  | [] => .done ()
  | line :: rest => .say line (tellAll rest)

/-- Asks once and takes any line. -/
def question (prompt : String) : Dialogue String :=
  .ask prompt (fun _ => none) .done

/-- Asks once for something that is read from the line. -/
def inquire {α : Type} (prompt : String) (read : String → Except BadInput α) : Dialogue α :=
  .ask prompt (fun _ => none) fun line =>
    match read line with
    | .ok a => .done a
    | .error e => .fail (.badInput e)

/-- A result of a computation, as a dialogue in which nothing is said. -/
def ofExcept {α : Type} : Except Fault α → Dialogue α
  | .ok a => .done a
  | .error f => .fail f

end Dialogue

/-- One thing written to a console: a question, after which the line stays open, or a line. -/
inductive Utterance where
  | prompt (text : String)
  | line (text : String)
  deriving DecidableEq, Repr

/-- What an utterance writes. -/
def Utterance.written : Utterance → String
  | .prompt text => text
  | .line text => text ++ "\n"

/-- What was written, all together. -/
def written (said : List Utterance) : String :=
  String.join (said.map Utterance.written)

/-- How a dialogue went: what was said, how it ended, and the lines that were not read. -/
structure Transcript (α : Type) where
  said : List Utterance
  ending : Except Fault α
  unread : List String

/-- The lines of a text. The last one need not be ended. -/
def lines (text : String) : List String :=
  let pieces := text.toList.splitOn '\n'
  let full := pieces.dropLast
  let last := pieces.getLast?.getD []
  (if last.isEmpty then full else full ++ [last]).map String.ofList

/-- A line without the blanks around it. -/
def stripped (line : String) : String :=
  String.ofList (Text.trim Text.isBlank line.toList)

/-- Asks a question until there is no complaint about the answer: what is said, the accepted answer
    if the input does not end first, and the lines that are left. -/
def listen (prompt : String) (complaint : String → Option String) :
    List String → List Utterance × Option String × List String
  | [] => ([.prompt prompt], none, [])
  | line :: rest =>
    match complaint (stripped line) with
    | none => ([.prompt prompt], some (stripped line), rest)
    | some c =>
      let (said, accepted, unread) := listen prompt complaint rest
      (.prompt prompt :: .line c :: said, accepted, unread)

/-- Conducts a dialogue on the lines of an input. A question at the end of the input is a fault. -/
def Dialogue.conduct {α : Type} : Dialogue α → List String → Transcript α
  | .done a, input => { said := [], ending := .ok a, unread := input }
  | .fail f, input => { said := [], ending := .error f, unread := input }
  | .say line next, input =>
    let t := next.conduct input
    { t with said := .line line :: t.said }
  | .ask prompt complaint next, input =>
    match listen prompt complaint input with
    | (said, none, unread) => { said, ending := .error .endOfInput, unread }
    | (said, some answer, unread) =>
      let t := (next answer).conduct unread
      { t with said := said ++ t.said }

end LinearSystems.Console
