import LinearSystems.ElementType
import LinearSystems.ElementType.Repeats
import LinearSystems.Fault

/-!
# Declared element types

The names that element types are declared by: full names, codes of a kind and a size in bytes,
single letters, and calendar types with a step in brackets. A mark for the order of bytes may stand
in front of a code. A type of texts or of bytes may leave its width open. The elements of a declared
type may be repeated in some dimensions.
-/

namespace LinearSystems

/-- An element type as it is declared. -/
inductive Declaration where
  | fixed (type : ElementType)
  /-- Plain texts of an open width. -/
  | anyBytes
  /-- Texts of an open width. -/
  | anyText
  /-- Bytes of an open size. -/
  | anyRaw
  /-- Plain texts of one character. A longer text is a list of its characters. -/
  | character
  deriving DecidableEq, Repr

/-- A declaration with the order of bytes and the dimensions that each element is repeated in. -/
structure FullDeclaration where
  declaration : Declaration
  highByteFirst : Bool := false
  repeats : List Nat := []
  deriving DecidableEq, Repr

namespace Declaration

/-- The types of single letters. -/
def letters : List (Char × Declaration) :=
  [('?', fixed .truth),
    ('b', fixed (.integer true 8)), ('h', fixed (.integer true 16)),
    ('i', fixed (.integer true 32)), ('l', fixed (.integer true 64)),
    ('q', fixed (.integer true 64)), ('p', fixed (.integer true 64)),
    ('n', fixed (.integer true 64)),
    ('B', fixed (.integer false 8)), ('H', fixed (.integer false 16)),
    ('I', fixed (.integer false 32)), ('L', fixed (.integer false 64)),
    ('Q', fixed (.integer false 64)), ('P', fixed (.integer false 64)),
    ('N', fixed (.integer false 64)),
    ('e', fixed (.real 16)), ('f', fixed (.real 32)), ('d', fixed (.real 64)),
    ('g', fixed (.real 128)),
    ('F', fixed (.complex 64)), ('D', fixed (.complex 128)), ('G', fixed (.complex 256)),
    ('S', anyBytes), ('a', anyBytes), ('c', character), ('U', anyText),
    ('V', anyRaw), ('T', fixed .openText), ('O', fixed .object),
    ('M', fixed (.date .unspecified)), ('m', fixed (.span .unspecified))]

/-- The types in the order of their numbers. -/
def numbered : List Declaration :=
  [fixed .truth,
    fixed (.integer true 8), fixed (.integer false 8),
    fixed (.integer true 16), fixed (.integer false 16),
    fixed (.integer true 32), fixed (.integer false 32),
    fixed (.integer true 64), fixed (.integer false 64),
    fixed (.integer true 64), fixed (.integer false 64),
    fixed (.real 32), fixed (.real 64), fixed (.real 128),
    fixed (.complex 64), fixed (.complex 128), fixed (.complex 256),
    fixed .object, anyBytes, anyText, anyRaw,
    fixed (.date .unspecified), fixed (.span .unspecified), fixed (.real 16)]

/-- The type of a letter. A character whose code is the number of a type stands for it. -/
def ofLetter? (letter : Char) : Option Declaration :=
  (letters.lookup letter).or numbered[letter.toNat]?

/-- The sizes in bytes that a kind of numbers has. -/
def sizes : List (Char × List Nat) :=
  [('b', [1]), ('i', [1, 2, 4, 8]), ('u', [1, 2, 4, 8]), ('f', [2, 4, 8, 16]),
    ('c', [8, 16, 32]), ('O', [8])]

/-- The type of a kind of numbers with a size in bytes, of which there are some. -/
def ofKind (kind : Char) (size : Nat) : ElementType :=
  match kind with
  | 'b' => .truth
  | 'i' => .integer true (8 * size)
  | 'u' => .integer false (8 * size)
  | 'f' => .real (8 * size)
  | 'c' => .complex (8 * size)
  | _ => .object

/-- The most bytes that an element may take up. -/
def maxBytes : Nat := Nat.pow 2 31 - 1

/-- The size that follows the letter of a code. -/
def size? (text : List Char) : Option Nat :=
  match Text.leadingWhole text with
  | (some size, []) => if 0 ≤ size ∧ size ≤ maxBytes then some size.toNat else none
  | _ => none

/-- The type of a kind with a size. A size of zero leaves the width of texts and bytes open. -/
def ofSize? (kind : Char) (size : Nat) : Option Declaration :=
  match kind with
  | 'S' => some (if size = 0 then anyBytes else fixed (.bytes size))
  | 'a' => some (if size = 0 then anyBytes else fixed (.bytes size))
  | 'U' =>
    if maxBytes < 4 * size then none
    else some (if size = 0 then anyText else fixed (.text size))
  | 'V' => some (if size = 0 then anyRaw else fixed (.raw size))
  | kind =>
    if ((sizes.lookup kind).getD []).contains size then some (fixed (ofKind kind size)) else none

/-- The type of a letter, which a size may follow. -/
def ofCode? : List Char → Option Declaration
  | [] => none
  | [letter] => ofLetter? letter
  | kind :: size => (size? size).bind (ofSize? kind)

/-- The bytes that an element takes up; none while its size is open. -/
def byteCount : Declaration → Nat
  | .fixed t => t.byteCount
  | .character => 1
  | _ => 0

/-- The full names of the types. -/
def names : List (String × Declaration) :=
  [("bool", fixed .truth), ("bool_", fixed .truth),
    ("int8", fixed (.integer true 8)), ("byte", fixed (.integer true 8)),
    ("int16", fixed (.integer true 16)), ("short", fixed (.integer true 16)),
    ("int32", fixed (.integer true 32)), ("intc", fixed (.integer true 32)),
    ("int64", fixed (.integer true 64)), ("long", fixed (.integer true 64)),
    ("longlong", fixed (.integer true 64)), ("intp", fixed (.integer true 64)),
    ("int", fixed (.integer true 64)), ("int_", fixed (.integer true 64)),
    ("uint8", fixed (.integer false 8)), ("ubyte", fixed (.integer false 8)),
    ("uint16", fixed (.integer false 16)), ("ushort", fixed (.integer false 16)),
    ("uint32", fixed (.integer false 32)), ("uintc", fixed (.integer false 32)),
    ("uint64", fixed (.integer false 64)), ("ulong", fixed (.integer false 64)),
    ("ulonglong", fixed (.integer false 64)), ("uintp", fixed (.integer false 64)),
    ("uint", fixed (.integer false 64)),
    ("float16", fixed (.real 16)), ("half", fixed (.real 16)),
    ("float32", fixed (.real 32)), ("single", fixed (.real 32)),
    ("float64", fixed (.real 64)), ("double", fixed (.real 64)), ("float", fixed (.real 64)),
    ("float128", fixed (.real 128)), ("longdouble", fixed (.real 128)),
    ("complex64", fixed (.complex 64)), ("csingle", fixed (.complex 64)),
    ("complex128", fixed (.complex 128)), ("cdouble", fixed (.complex 128)),
    ("complex", fixed (.complex 128)),
    ("complex256", fixed (.complex 256)), ("clongdouble", fixed (.complex 256)),
    ("object", fixed .object), ("object_", fixed .object),
    ("str", anyText), ("str_", anyText), ("unicode", anyText),
    ("bytes", anyBytes), ("bytes_", anyBytes), ("void", anyRaw)]

/-- What a text has after a beginning. -/
def after? (start : String) (text : List Char) : Option String :=
  if start.toList.isPrefixOf text then some (String.ofList (text.drop start.length)) else none

/-- The name of a calendar type with its step, if a text begins with one. -/
def calendarName? (text : List Char) : Option ((Calendar.Step → ElementType) × String) :=
  [("M8", ElementType.date), ("m8", ElementType.span), ("datetime64", ElementType.date),
    ("timedelta64", ElementType.span)].findSome? fun (start, make) =>
    (after? start text).map fun step => (make, step)

end Declaration

namespace FullDeclaration

/-- The marks for the order of bytes. -/
def marks : List Char := ['<', '>', '=', '|']

/-- The declaration of a name without dimensions in front. -/
def ofPlainName (name : String) : Except Fault FullDeclaration :=
  let text := name.toList
  let marked := match text.head? with
    | some mark => marks.contains mark
    | none => false
  let body := if marked then text.drop 1 else text
  let high := text.head? == some '>'
  match Declaration.calendarName? body with
  | some (make, step) =>
    match Calendar.Step.ofText step with
    | .ok step => .ok { declaration := .fixed (make step), highByteFirst := high }
    | .error defect => .error (.unreadable (.noStep defect))
  | none =>
    match Declaration.ofCode? body, Declaration.names.lookup name with
    | some declaration, _ => .ok { declaration, highByteFirst := high }
    | none, some declaration => .ok { declaration }
    | none, none => .error (.unreadable (.unknownType name))

/-- The bytes that an element takes up with all its repetitions; none while its size is open. -/
def byteCount (d : FullDeclaration) : Nat :=
  d.declaration.byteCount * volume d.repeats

/-- The declaration with a size, where it is open. -/
def sized (d : FullDeclaration) (size : Nat) : FullDeclaration :=
  if size = 0 then d
  else
    match d.declaration with
    | .anyBytes => { d with declaration := .fixed (.bytes size) }
    | .anyText => { d with declaration := .fixed (.text size) }
    | .anyRaw => { d with declaration := .fixed (.raw size) }
    | _ => d

/-- The count of elements in some dimensions, as long as it can be counted. -/
def countIn? (dimensions : List Nat) : Option Nat :=
  dimensions.foldl
    (fun count n => count.bind fun k => if k * n < Nat.pow 2 63 then some (k * n) else none)
    (some 1)

/-- What is in the way of repeating an element in some dimensions. -/
def excess? (d : FullDeclaration) (dimensions : List Nat) : Option Repeats.Excess :=
  if Tensor.maxRank < dimensions.length || dimensions.any (Nat.pow 2 63 ≤ ·) then some .dimensions
  else if dimensions.any (Declaration.maxBytes < ·) then some .length
  else
    match countIn? dimensions with
    | some count =>
      if Declaration.maxBytes < count || Declaration.maxBytes < d.byteCount * count then some .bytes
      else none
    | none => some .bytes

/-- Repeats the elements of a declaration. Of elements of an open size a count is the size. -/
def repeated (d : FullDeclaration) (repeats : Repeats) : Except Fault FullDeclaration :=
  let unfit := fun excess => Except.error (Fault.unreadable (.unfitRepeats excess))
  if d.byteCount = 0 then
    match repeats with
    | .count n => if Declaration.maxBytes < n then unfit .openSize else .ok (d.sized n)
    | .shape _ => unfit .openSize
  else
    match d.excess? repeats.dimensions with
    | some excess => unfit excess
    | none => .ok { d with repeats := repeats.dimensions ++ d.repeats }

end FullDeclaration

end LinearSystems
