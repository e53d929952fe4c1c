import LinearSystems.Fault
import LinearSystems.Text.Blank
import LinearSystems.Text.DecimalDigit

/-!
# Numerals

How numbers are read. Blanks around a numeral are dropped, a sign may come first, the digits of all
scripts count, and a single underscore may stand between two digits. A real number has an optional
point and an optional exponent, or is one of the words for infinity and for no number; it is rounded
to the nearest double, a half to even. A whole number has digits alone, at most 4300 of them, and no
longer one is written either.
-/

namespace LinearSystems.Numeral

/-- The digits that follow a digit, and what comes after them. -/
def moreDigits : List Char → List Nat × List Char
  | [] => ([], [])
  | '_' :: c :: rest =>
    match Text.digitValue? c with
    | some d =>
      let (ds, after) := moreDigits rest
      (d :: ds, after)
    | none => ([], '_' :: c :: rest)
  | c :: rest =>
    match Text.digitValue? c with
    | some d =>
      let (ds, after) := moreDigits rest
      (d :: ds, after)
    | none => ([], c :: rest)

/-- The longest run of digits in front, and what comes after it. -/
def digits : List Char → List Nat × List Char
  | [] => ([], [])
  | c :: rest =>
    match Text.digitValue? c with
    | some d =>
      let (ds, after) := moreDigits rest
      (d :: ds, after)
    | none => ([], c :: rest)

/-- The whole number that digits stand for. -/
def ofDigits (ds : List Nat) : Nat :=
  ds.foldl (fun n d => 10 * n + d) 0

/-- Takes a sign off the front: whether it is a minus, and what comes after it. -/
def takeSign : List Char → Bool × List Char
  | '-' :: rest => (true, rest)
  | '+' :: rest => (false, rest)
  | rest => (false, rest)

/-- An exponent part, which has to reach the end of the text; without one the exponent is zero. -/
def exponent? : List Char → Option Int
  | [] => some 0
  | c :: rest =>
    if c = 'e' ∨ c = 'E' then
      let (negative, body) := takeSign rest
      match digits body with
      | (d :: ds, []) =>
        let n : Int := ofDigits (d :: ds)
        some (if negative then -n else n)
      | _ => none
    else none

/-- A fraction part: the digits after a point, and what comes after them. -/
def fraction : List Char → List Nat × List Char
  | '.' :: rest => digits rest
  | rest => ([], rest)

/-- The nearest double to `n * 10 ^ e`. -/
def nearest (n : Nat) (e : Int) : Float :=
  Float.ofScientific n (e < 0) e.natAbs

/-- A positive decimal number. -/
def decimal? (body : List Char) : Option Float :=
  let (whole, afterWhole) := digits body
  let (part, afterPart) := fraction afterWhole
  if whole.isEmpty && part.isEmpty then none
  else
    (exponent? afterPart).map fun e => nearest (ofDigits (whole ++ part)) (e - part.length)

/-- A plain letter in lower case; other characters as they are. -/
def lower (c : Char) : Char :=
  c.toLower

/-- A number in words. -/
def word? (body : List Char) : Option Float :=
  let word := String.ofList (body.map lower)
  if word = "inf" ∨ word = "infinity" then some (1.0 / 0.0)
  else if word = "nan" then some (0.0 / 0.0)
  else none

/-- Reads a real number. -/
def real? (text : String) : Option Float :=
  let (negative, body) := takeSign (Text.trim Text.isSpace text.toList)
  ((decimal? body).or (word? body)).map fun x => if negative then -x else x

/-- Where the imaginary part of a number begins: at its last sign that is not in front of the number
    and belongs to no exponent. -/
def imaginaryFrom (body : List Char) : Nat :=
  let starts := (List.range body.length).filter fun i =>
    0 < i && (body[i]? == some '+' || body[i]? == some '-')
      && !(body[i - 1]? == some 'e' || body[i - 1]? == some 'E')
  starts.getLastD 0

/-- Reads an imaginary part without its mark; a sign alone, or nothing, stands for one. -/
def imaginary? (body : List Char) : Option Float :=
  match body with
  | [] => some 1.0
  | ['+'] => some 1.0
  | ['-'] => some (-1.0)
  | body => real? (String.ofList body)

/-- Takes parentheses off a text that is put into them. -/
def unwrapped (body : List Char) : List Char :=
  if body.head? = some '(' ∧ body.getLast? = some ')' then
    Text.trim Text.isSpace (body.drop 1).dropLast
  else body

/-- Reads a complex number: a real part, an imaginary part marked with `j`, or both. -/
def complex? (text : String) : Option (Float × Float) :=
  let body := unwrapped (Text.trim Text.isSpace text.toList)
  if body.any Text.isSpace then none
  else
    match body.getLast? with
    | some mark =>
      if mark = 'j' ∨ mark = 'J' then
        let cut := imaginaryFrom body.dropLast
        let re := if cut = 0 then some 0.0 else real? (String.ofList (body.take cut))
        let im := imaginary? (body.dropLast.drop cut)
        match re, im with
        | some re, some im => some (re, im)
        | _, _ => none
      else (real? (String.ofList body)).map fun re => (re, 0.0)
    | none => none

/-- The most digits that a whole number may be written with. -/
def maxDigits : Nat := 4300

/-- The digits of a whole number, of which there is at least one, and whether a minus stands before
    them. -/
def wholeDigits? (text : String) : Option (Bool × List Nat) :=
  let (negative, body) := takeSign (Text.trim Text.isSpace text.toList)
  match digits body with
  | (d :: ds, []) => some (negative, d :: ds)
  | _ => none

/-- Reads a whole number. -/
def whole? (text : String) : Option Int :=
  match wholeDigits? text with
  | some (negative, ds) =>
    if maxDigits < ds.length then none
    else
      let n : Int := ofDigits ds
      some (if negative then -n else n)
  | none => none

/-- Writes a whole number, which has to have few enough digits to be read again. -/
def written (n : Nat) : Except Fault String :=
  if Nat.pow 10 maxDigits ≤ n then .error (.misuse (.tooManyDigits maxDigits)) else .ok (toString n)

end LinearSystems.Numeral
