import LinearSystems.Decimal.Digits

/-!
# The layout of a decimal number

Digits and an exponent become text in one of two shapes: positional, with zeros filled in around
the point, or with an exponent part of a sign and at least two digits.
-/

namespace LinearSystems.Decimal

/-- The digits of a number, at least one. -/
def digitChars (n : Nat) : List Char :=
  Nat.toDigits 10 n

/-- Drops the zeros at the end, but for a leading digit. -/
def dropTrailingZeros : List Char → List Char
  | [] => []
  | d :: rest => d :: (rest.reverse.dropWhile (· = '0')).reverse

/-- A fraction part with its point; none if there are no digits. -/
def fractionPart (digits : List Char) : List Char :=
  if digits.isEmpty then [] else '.' :: digits

/-- The exponent part: a sign and at least two digits. -/
def exponentPart (e : Int) : List Char :=
  let digits := digitChars e.natAbs
  'e' :: (if e < 0 then '-' else '+') :: (if digits.length < 2 then '0' :: digits else digits)

/-- One digit before the point, then the exponent part. -/
def withExponent (digits : List Char) (e : Int) : List Char :=
  digits.take 1 ++ fractionPart (digits.drop 1) ++ exponentPart e

/-- All digits in their places, with zeros where the digits do not reach the point. -/
def positional (digits : List Char) (e : Int) : List Char :=
  if e < 0 then
    '0' :: '.' :: (List.replicate (e.natAbs - 1) '0' ++ digits)
  else
    let whole := e.natAbs + 1
    digits.take whole ++ List.replicate (whole - digits.length) '0'
      ++ fractionPart (digits.drop whole)

/-- The rules of a layout that chooses its shape by the exponent: positional from `positionalFrom`
    to below `positionalBelow`, and whether a whole number in positional shape still shows a
    fraction digit. -/
structure Style where
  positionalFrom : Int
  positionalBelow : Int
  wholeShowsFraction : Bool

/-- Lays out digits by a style. -/
def Style.layOut (s : Style) (digits : List Char) (e : Int) : List Char :=
  if s.positionalFrom ≤ e ∧ e < s.positionalBelow then
    let text := positional digits e
    if s.wholeShowsFraction && !text.contains '.' then text ++ ['.', '0'] else text
  else withExponent digits e

/-- The style of a number that is to be read back: positional from `0.0001` to below `10 ^ 16`, and
    a whole number keeps a fraction digit. -/
def readBackStyle : Style where
  positionalFrom := -4
  positionalBelow := 16
  wholeShowsFraction := true

/-- The style of a number shown with a limited count of digits: positional from `0.0001` to below
    the power of ten that the digits still reach. -/
def limitedStyle (count : Nat) : Style where
  positionalFrom := -4
  positionalBelow := count
  wholeShowsFraction := false

/-- The digits of a whole number with a point set before the last `places` of them. -/
def withPoint (n places : Nat) : List Char :=
  let digits := digitChars n
  let padded := List.replicate (places + 1 - digits.length) '0' ++ digits
  let whole := padded.length - places
  padded.take whole ++ fractionPart (padded.drop whole)

end LinearSystems.Decimal
