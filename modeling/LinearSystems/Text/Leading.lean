/-!
# Numbers at the front of a text

How a whole number is taken off the front of a plain text: blanks before it are skipped, a sign may
come first, and the number reaches as far as there are digits.
-/

namespace LinearSystems.Text

/-- The blank characters of plain text. -/
def isPlainBlank (c : Char) : Bool :=
  c == ' ' || (9 ≤ c.toNat && c.toNat ≤ 13)

/-- The whole number that plain digits stand for. -/
def plainNumber (digits : List Char) : Nat :=
  digits.foldl (fun n c => 10 * n + (c.toNat - 48)) 0

/-- How many bytes a text takes up. -/
def byteCount (text : List Char) : Nat :=
  text.foldl (fun n c => n + c.utf8Size) 0

/-- A sign at the front of a text: whether it is a minus, and what comes after it. -/
def leadingSign : List Char → Bool × List Char
  | '-' :: rest => (true, rest)
  | '+' :: rest => (false, rest)
  | text => (false, text)

/-- The whole number at the front of a text, and what comes after it; without digits the text is
    left as it is. -/
def leadingWhole (text : List Char) : Option Int × List Char :=
  let (negative, body) := leadingSign (text.dropWhile isPlainBlank)
  let n := plainNumber (body.takeWhile Char.isDigit)
  if (body.takeWhile Char.isDigit).isEmpty then (none, text)
  else (some (if negative then -n else n), body.dropWhile Char.isDigit)

end LinearSystems.Text
