import LinearSystems.Text.Leading

/-!
# Repetitions

A repetition says how often an element of a type is repeated: a count, or dimensions that each
element brings to the shape of an array. It is written as a whole number, or as whole numbers with
commas between them, with or without parentheses around them; a single number with a comma after it
stands for a single dimension. Blanks separate numbers and mean nothing else.
-/

namespace LinearSystems

/-- How often an element is repeated. -/
inductive Repeats where
  | count (n : Nat)
  | shape (dimensions : List Nat)
  deriving DecidableEq, Repr

namespace Repeats

/-- The dimensions of a repetition. -/
def dimensions : Repeats → List Nat
  | .count n => [n]
  | .shape dimensions => dimensions

/-- Why a text is no repetition. -/
inductive Misspelling where
  /-- There are only blanks. -/
  | blank
  /-- A number begins with a zero and is not zero. -/
  | leadingZero
  /-- A parenthesis closes that was not opened. -/
  | unopened
  /-- A parenthesis opens that is not closed. -/
  | unclosed
  /-- Two numbers in parentheses have no comma between them. -/
  | missingComma
  | unordered
  deriving DecidableEq, Repr

/-- The text of a misspelling. -/
def Misspelling.message : Misspelling → String
  | .blank => "invalid syntax (<unknown>, line 0)"
  | .leadingZero =>
    "leading zeros in decimal integer literals are not permitted; "
      ++ "use an 0o prefix for octal integers (<unknown>, line 1)"
  | .unopened => "unmatched ')' (<unknown>, line 1)"
  | .unclosed => "'(' was never closed (<unknown>, line 1)"
  | .missingComma => "invalid syntax. Perhaps you forgot a comma? (<unknown>, line 1)"
  | .unordered => "invalid syntax (<unknown>, line 1)"

/-- Why an element cannot be repeated in some dimensions. -/
inductive Excess where
  /-- The element is of an open size, which the repetition does not settle. -/
  | openSize
  /-- There are too many dimensions, or one of them cannot be counted. -/
  | dimensions
  /-- A dimension is longer than the bytes of an element may be. -/
  | length
  /-- All repeated elements together take up too many bytes. -/
  | bytes
  deriving DecidableEq, Repr

/-- The text of an excess. -/
def Excess.message : Excess → String
  | .openSize => "invalid itemsize in generic type tuple"
  | .dimensions => "invalid shape in fixed-type tuple."
  | .length => "invalid shape in fixed-type tuple: dimension does not fit into a C int."
  | .bytes => "invalid shape in fixed-type tuple: dtype size in bytes must fit into a C int."

/-- What a repetition is written with. -/
inductive Token where
  | opening
  | closing
  | comma
  | number (digits : List Char)
  deriving DecidableEq, Repr

/-- The tokens of a text, in which everything else is blank. -/
def tokens : List Char → List Token
  | [] => []
  | c :: rest =>
    let after := tokens rest
    if c = '(' then .opening :: after
    else if c = ')' then .closing :: after
    else if c = ',' then .comma :: after
    else if c.isDigit then
      match rest.head?.any Char.isDigit, after with
      | true, .number digits :: more => .number (c :: digits) :: more
      | _, _ => .number [c] :: after
    else after

/-- What is wrong with a token by itself, where a parenthesis may have been opened. -/
def tokenDefect? (isOpened : Bool) : Token → Option Misspelling
  | .closing => if isOpened then none else some .unopened
  | .number digits =>
    if digits.head? == some '0' && digits.any (· != '0') then some .leadingZero else none
  | _ => none

/-- The repetition by some numbers, which is a count if there is a single one without a comma. -/
def ofNumbers (numbers : List Nat) (hasComma : Bool) : Repeats :=
  match numbers, hasComma with
  | [n], false => .count n
  | _, _ => .shape numbers

/-- Reads numbers with commas between them; the numbers in front, and whether there was a comma, are
    given. -/
def readNumbers (isOpened : Bool) (numbers : List Nat) (hasComma : Bool) :
    List Token → Except Misspelling Repeats
  | [] => if isOpened then .error .unclosed else .ok (ofNumbers numbers hasComma)
  | .closing :: _ => .ok (ofNumbers numbers hasComma)
  | .number digits :: .comma :: rest =>
    readNumbers isOpened (numbers ++ [Text.plainNumber digits]) true rest
  | [.number _, .number _] => .error (if isOpened then .unclosed else .unordered)
  | .number _ :: .number _ :: _ => .error (if isOpened then .missingComma else .unordered)
  | .number digits :: rest =>
    readNumbers isOpened (numbers ++ [Text.plainNumber digits]) hasComma rest
  | _ => .error .unordered

/-- Reads a repetition. A token that is wrong by itself counts before the order of the tokens. -/
def read (text : List Char) : Except Misspelling Repeats :=
  let ts := tokens text
  let isOpened := ts.head? == some .opening
  match ts.findSome? (tokenDefect? isOpened) with
  | some defect => .error defect
  | none =>
    if ts.isEmpty then .error .blank
    else readNumbers isOpened [] false (if isOpened then ts.drop 1 else ts)

end Repeats

end LinearSystems
