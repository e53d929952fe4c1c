import LinearSystems.ElementType.Declaration
import LinearSystems.Text.Blank

/-!
# Formats of element types

An element type is declared by a name, or by a format: words with commas between them. A word has a
repetition in front of a name, and a mark for the order of bytes in front of either. A single word
declares a type whose elements are repeated, several words declare the fields of a compound type,
and a comma at the end makes a field of a single word. A name in a format may be a format itself.
-/

namespace LinearSystems

/-- A field of a compound type. -/
structure Field where
  name : String
  content : FullDeclaration
  deriving DecidableEq, Repr

/-- What declares an element type: a single declaration, or the fields of a compound type. -/
inductive Declared where
  | single (d : FullDeclaration)
  | compound (fields : List Field)
  deriving DecidableEq, Repr

namespace Format

/-- Whether a comma stands in no square brackets; how deep the text is in brackets is given. -/
def hasComma (depth : Int) : List Char → Bool
  | [] => false
  | ',' :: rest => depth == 0 || hasComma depth rest
  | '[' :: rest => hasComma (depth + 1) rest
  | ']' :: rest => hasComma (depth - 1) rest
  | _ :: rest => hasComma depth rest

/-- Whether a text begins with a count or with empty parentheses. -/
def beginsWithRepeats : List Char → Bool
  | '(' :: ')' :: _ => true
  | c :: _ => c.isDigit
  | [] => false

/-- Whether a text is a format rather than a name: it begins with a repetition, before which a mark
    may stand, or has a comma. Parentheses after a mark need a name after them. -/
def isFormat (text : List Char) : Bool :=
  let afterMark := match text with
    | c :: rest => FullDeclaration.marks.contains c && rest != ['(', ')'] && beginsWithRepeats rest
    | [] => false
  beginsWithRepeats text || afterMark || hasComma 0 text

/-- A word of a format as it is written. -/
structure Word where
  firstMark : List Char
  repeats : List Char
  secondMark : List Char
  name : List Char

/-- The first character of a text if it is of a class. -/
def firstIf (p : Char → Bool) (text : List Char) : List Char :=
  (text.take 1).filter p

/-- The repetition at the front of a text: numbers, commas and blanks, with an opening parenthesis
    before them and a closing one after them. -/
def leadingRepeats (text : List Char) : List Char :=
  let blanks := text.takeWhile (· == ' ')
  let opening := firstIf (· == '(') (text.drop blanks.length)
  let numbers := (text.drop (blanks.length + opening.length)).takeWhile fun c =>
    c == ' ' || c == ',' || c.isDigit
  let start := blanks ++ opening ++ numbers
  let closing := firstIf (· == ')') (text.drop start.length)
  start ++ closing ++ (text.drop (start.length + closing.length)).takeWhile (· == ' ')

/-- The name at the front of a text, with its step in brackets. -/
def leadingName (text : List Char) : List Char :=
  let letters := text.takeWhile fun c => c.isAlphanum || c == '.' || c == '?'
  match text.drop letters.length with
  | '[' :: rest =>
    let step := rest.takeWhile fun c => c.isAlphanum || c == ',' || c == '.'
    if (rest.drop step.length).head? == some ']' then letters ++ '[' :: step ++ [']'] else letters
  | _ => letters

namespace Word

/-- The word at the front of a text. -/
def ofText (text : List Char) : Word :=
  let isMark := fun c => FullDeclaration.marks.contains c
  let firstMark := firstIf isMark text
  let afterFirst := text.drop firstMark.length
  let repeats := leadingRepeats afterFirst
  let afterRepeats := afterFirst.drop repeats.length
  let secondMark := firstIf isMark afterRepeats
  { firstMark, repeats, secondMark, name := leadingName (afterRepeats.drop secondMark.length) }

/-- How many characters a word takes up. -/
def length (w : Word) : Nat :=
  w.firstMark.length + w.repeats.length + w.secondMark.length + w.name.length

/-- The lowest byte comes first where nothing else is said. -/
def settledMark (mark : List Char) : List Char :=
  if mark = ['='] then ['<'] else mark

/-- The mark of a word; two marks have to mean the same. -/
def mark (w : Word) : Except Fault (List Char) :=
  if w.secondMark.isEmpty then .ok w.firstMark
  else if w.firstMark.isEmpty then .ok w.secondMark
  else
    let first := settledMark w.firstMark
    let second := settledMark w.secondMark
    if first = second then .ok first
    else
      .error (.unreadable (.unequalMarks (String.ofList first) (String.ofList second)))

end Word

/-- A name of a format with its repetition. -/
structure Item where
  name : String
  repeats : Option Repeats

/-- What a word stands for. A mark that says nothing is left off. -/
def Word.item (w : Word) : Except Fault Item := do
  let mark ← w.mark
  let name := String.ofList ((if mark = ['>'] then mark else []) ++ w.name)
  if w.repeats.isEmpty then return { name, repeats := none }
  match Repeats.read w.repeats with
  | .ok repeats => return { name, repeats := some repeats }
  | .error misspelling => throw (.unreadable (.misspeltRepeats misspelling))

/-- What comes after the word at the front of a text, without blanks. -/
def afterWord (text : List Char) : List Char :=
  (text.drop (Word.ofText text).length).dropWhile Text.isBlank

/-- What comes after a separator, without blanks. -/
def afterComma (text : List Char) : List Char :=
  text.dropWhile Text.isBlank

theorem length_afterWord_le (text : List Char) : (afterWord text).length ≤ text.length := by
  unfold afterWord
  have h :=
    (List.dropWhile_suffix Text.isBlank (l := text.drop (Word.ofText text).length)).length_le
  rw [List.length_drop] at h
  exact Nat.le_trans h (Nat.sub_le ..)

theorem length_afterComma_le (text : List Char) : (afterComma text).length ≤ text.length :=
  (List.dropWhile_suffix Text.isBlank).length_le

/-- A word and a separator make what is left of a text shorter. -/
theorem length_lt_of_afterWord {text : List Char} (h : ¬(afterWord text).isEmpty) :
    (afterComma (afterWord text).tail).length < text.length := by
  have hword := length_afterWord_le text
  have hcomma := length_afterComma_le (afterWord text).tail
  have hpos : 0 < (afterWord text).length := by
    rwa [List.length_pos_iff, ne_eq, ← List.isEmpty_iff]
  rw [List.length_tail] at hcomma
  omega

/-- The items of a part of a format from a word of some number on, and whether a comma separates
    them or ends them. -/
def itemsFrom (format : String) (number : Nat) (text : List Char) :
    Except Fault (List Item × Bool) :=
  if _hrest : (afterWord text).isEmpty then
    (Word.ofText text).item.map fun item => ([item], false)
  else if (afterWord text).head? ≠ some ',' then
    .error (.unreadable (.unknownFormat number format))
  else do
    let item ← (Word.ofText text).item
    let next := afterComma (afterWord text).tail
    if next.isEmpty then return ([item], true)
    let (items, _) ← itemsFrom format (number + 1) next
    return (item :: items, true)
termination_by text.length
decreasing_by exact length_lt_of_afterWord _hrest

/-- The items that declare something: a last word without anything in it does not. -/
def kept (items : List Item) : List Item :=
  match items.getLast? with
  | some { name := "", repeats := none } => items.dropLast
  | _ => items

end Format

namespace Declared

/-- The declaration of a name or of a format, in which names are formats up to some depth. -/
def ofNameWithin : (depth : Nat) → (name : String) → Except Fault Declared
  | 0, name => .error (.unreadable (.unknownType name))
  | depth + 1, name => do
    let ofItem := fun item : Format.Item => do
      match ← ofNameWithin depth item.name, item.repeats with
      | .single d, some repeats => d.repeated repeats
      | .single d, none => return d
      | .compound _, _ => throw (.unreadable (.unknownType item.name))
    if !Format.isFormat name.toList then
      return .single (← FullDeclaration.ofPlainName name)
    match ← Format.itemsFrom name 1 name.toList with
    | ([item], false) => return .single (← ofItem item)
    | (items, _) =>
      let contents ← (Format.kept items).mapM ofItem
      if contents.isEmpty then
        throw (.unreadable .unexplained)
      return .compound (contents.zipIdx.map fun (content, i) => ⟨"f" ++ toString i, content⟩)

/-- The declaration of a name or of a format. Every name in a format is shorter than the format. -/
def ofName (name : String) : Except Fault Declared :=
  ofNameWithin (name.length + 1) name

end Declared

end LinearSystems
