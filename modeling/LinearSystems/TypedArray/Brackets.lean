import LinearSystems.Tensor.Basic

/-!
# Elements in brackets

The words of an array in nested brackets, one line for each row of the last dimension. A line that
would grow too long is broken between two words. Of an array with many elements only the first and
the last three places of each dimension are shown, with dots between them.
-/

namespace LinearSystems.Brackets

/-- The count of elements from which on an array is shown by its ends only. -/
def threshold : Nat := 1000

/-- How many places are shown at either end of a dimension. -/
def edge : Nat := 3

/-- Whether a dimension is longer than its two ends. -/
def isLong (n : Nat) : Bool :=
  2 * edge < n

/-- Whether an array of a shape is shown by its ends only. -/
def isCut (shape : List Nat) : Bool :=
  threshold < volume shape

/-- The elements at the ends of all dimensions. -/
def ends {α : Type u} : (shape : List Nat) → List α → List α
  | [], elements => elements
  | n :: rest, elements =>
    let part := fun i => ends rest ((elements.drop (i * volume rest)).take (volume rest))
    let places := if isLong n then List.range edge ++ List.range' (n - edge) edge
      else List.range n
    places.flatMap part

/-- The lengths of the dimensions when only their ends are shown. -/
def endsShape (shape : List Nat) : List Nat :=
  shape.map fun n => if isLong n then 2 * edge else n

/-- The shape of what is shown of an array. -/
def shownShape (shape : List Nat) : List Nat :=
  if isCut shape then endsShape shape else shape

/-- What is shown of the elements of an array. -/
def shownElements {α : Type u} (shape : List Nat) (elements : List α) : List α :=
  if isCut shape then ends shape elements else elements

/-- How words are put together: what stands between two of them, and the length of a line. -/
structure Layout where
  separator : String
  limit : Nat

/-- A text without the blanks at its end. -/
def trimmed (text : String) : String :=
  text.trimAsciiEnd.copy

/-- A number of blanks. -/
def blanks (n : Nat) : String :=
  String.ofList (List.replicate n ' ')

/-- Puts further lines below an open one, each after an indent: the lines that are full, and the one
    that is open then. -/
def below (indent : String) : (line : String) → List String → String × String
  | line, [] => ("", line)
  | line, next :: rest =>
    let (full, last) := below indent (indent ++ next) rest
    (trimmed line ++ "\n" ++ full, last)

/-- Puts words on lines, each line but the first after an indent. The room that a word needs after
    it is one character. A word of several lines keeps them below each other. -/
def wrap (separator : String) (limit : Nat) (indent : String) :
    (line : String) → List String → String
  | line, [] => line
  | line, word :: rest =>
    let parts := word.splitOn "\n"
    let width := parts.foldl (fun n part => max n part.length) 0
    let breaks := limit < line.length + width ∧ indent.length < line.length
    let (start, left) := if breaks then (indent, indent) else (line, blanks line.length)
    let (full, last) := below left (start ++ parts.headD "") (parts.drop 1)
    let open' := last ++ blanks (width - (parts.getLastD "").length)
    (if breaks then trimmed line ++ "\n" else "") ++ full
      ++ wrap separator limit indent (if rest.isEmpty then open' else open' ++ separator) rest

/-- Puts dots into the middle of some texts, if places are left out there. -/
def withDots (left : Bool) (texts : List String) : List String :=
  if left then texts.take edge ++ "..." :: texts.drop edge else texts

/-- The words of an array in nested brackets, of which the outermost stands after an indent. For
    each dimension it is given whether places are left out. -/
def nested (separator : String) :
    (shape : List (Nat × Bool)) → (indent : String) → (limit : Nat) → List String → String
  | [], _, _, words => "".intercalate words
  | [(_, left)], indent, limit, words =>
    let text := wrap separator (limit - 1) indent indent (withDots left words)
    "[" ++ (text.drop indent.length).copy ++ "]"
  | (n, left) :: rest, indent, limit, words =>
    let size := volume (rest.map (·.1))
    let part := fun i =>
      nested separator rest (indent ++ " ") (limit - 1) ((words.drop (i * size)).take size)
    let between :=
      trimmed separator ++ String.ofList (List.replicate rest.length '\n') ++ indent
    "[" ++ between.intercalate (withDots left ((List.range n).map part)) ++ "]"

/-- The words of an array of a shape, of which only those are given that are shown. -/
def text (layout : Layout) (shape : List Nat) (indent : String) (words : List String) : String :=
  let shown := (shownShape shape).zip (shape.map fun n => isCut shape && isLong n)
  nested layout.separator shown indent layout.limit words

/-- The length of a line in a message. -/
def lineLength : Nat := 75

/-- How an array is shown in a message, which closes a bracket after it. -/
def literalLayout : Layout where
  separator := ", "
  limit := lineLength - 1

/-- How an array is shown by itself. -/
def plainLayout : Layout where
  separator := " "
  limit := lineLength

/-- What stands in front of an array in a message. -/
def opening : String := "array("

/-- The length of the last line of a text. -/
def lastLineLength (text : String) : Nat :=
  (text.toList.reverse.takeWhile (· != '\n')).length

/-- An array as a message shows it, with the notes that its elements do not tell. Notes that do not
    fit on the last line stand on one of their own. -/
def literal (shape : List Nat) (words : List String) (notes : List String) : String :=
  let indent := blanks opening.length
  let body := opening
    ++ (if volume shape = 0 then "[]" else text literalLayout shape (indent ++ " ") words)
  if notes.isEmpty then body ++ ")"
  else
    let note := ", ".intercalate notes ++ ")"
    let fits := lastLineLength (body ++ ",") + note.length + 1 ≤ lineLength
    body ++ "," ++ (if fits then " " else "\n" ++ indent) ++ note

/-- An array by itself. -/
def bare (shape : List Nat) (words : List String) : String :=
  if volume shape = 0 then "[]" else text plainLayout shape " " words

/-- The note on the shape, where the brackets do not show it. -/
def shapeNote (shape : List Nat) : List String :=
  if isCut shape || (volume shape = 0 && shape != [0]) then ["shape=" ++ shapeText shape] else []

end LinearSystems.Brackets
