import LinearSystems.Decimal.Print
import LinearSystems.TypedArray.Basic

/-!
# Columns of real numbers

Real numbers that are shown together have one layout: they are aligned at their points, show at most
eight places, and all of them take an exponent if one is far from one or the largest is far from the
smallest. What is far depends on the precision of their type. Exponents have one length, and with
exponents all numbers show as many places as the one that needs most.
-/

namespace LinearSystems.RealText

/-- A text filled up with blanks in front. -/
def padLeft (width : Nat) (s : String) : String :=
  String.ofList (List.replicate (width - s.length) ' ') ++ s

/-- A text filled up with a character at its end. -/
def padRight (c : Char) (width : Nat) (s : String) : String :=
  s ++ String.ofList (List.replicate (width - s.length) c)

/-- The largest length of some texts. -/
def widest (texts : List String) : Nat :=
  (texts.map String.length).foldl max 0

/-- The most places that a number shows. -/
def maxPlaces : Nat := 8

/-- The number of a type that is nearest to a decimal number. -/
def nearestOf (bits c : Nat) (g : Int) : Float :=
  roundTo bits (Float.ofScientific c (g < 0) g.natAbs)

/-- The nearest decimal number of a count of digits that reads back as a positive number of a type,
    if there is one. -/
def onGrid? (bits : Nat) (x : Float) (v : Decimal.Double) (count : Nat) : Option Decimal.Digits :=
  let e := v.value.leadingExponent
  let g := e - count + 1
  let units := v.value.inUnits g
  let readsBack := fun c => nearestOf bits c g == x.abs
  [units.round, units.floor, units.floor + 1].find? readsBack |>.map fun c =>
    Decimal.Double.ofGrid count c e

/-- The fewest digits that tell a number from the others of its type. -/
def fewestDigits (bits : Nat) (x : Float) (v : Decimal.Double) : Decimal.Digits :=
  if 32 < bits then v.shortest
  else ((List.range' 1 9).findSome? (onGrid? bits x v)).getD v.shortest

/-- The digits of a positive double as they are shown. -/
def shownDigits (d : Decimal.Digits) : List Char :=
  Decimal.dropTrailingZeros (Decimal.digitChars d.digits)

/-- Drops the zeros at the end of a text of places. -/
def trimPlaces (text : List Char) : List Char :=
  (text.reverse.dropWhile (· = '0')).reverse

/-- A number without an exponent. -/
def positionalText (bits : Nat) (x : Float) : String :=
  Decimal.print (fun v =>
    let d := fewestDigits bits x v
    let digits := shownDigits d
    let text :=
      if (digits.length : Int) - 1 - d.exponent ≤ maxPlaces then
        Decimal.positional digits d.exponent
      else trimPlaces (Decimal.withPoint ((v.value.inUnits (-maxPlaces)).round) maxPlaces)
    if text.contains '.' then text else text ++ ['.'])
    ['0', '.'] x

/-- A number with an exponent and the places that it needs. -/
def exponentText (bits : Nat) (x : Float) : String :=
  Decimal.print (fun v =>
    let d := fewestDigits bits x v
    let shown :=
      if (shownDigits d).length ≤ maxPlaces + 1 then d
      else Decimal.significant (maxPlaces + 1) v.value
    let digits := shownDigits shown
    digits.take 1 ++ '.' :: digits.drop 1 ++ Decimal.exponentPart shown.exponent)
    ['0', '.', 'e', '+', '0', '0'] x

/-- A number with an exponent and a count of places. A number that is told by that many digits shows
    those; any other is rounded to them. -/
def exponentTextTo (bits places : Nat) (x : Float) : String :=
  Decimal.print (fun v =>
    let d := fewestDigits bits x v
    let shown :=
      if (shownDigits d).length = places + 1 then d else Decimal.significant (places + 1) v.value
    let digits := Decimal.digitChars shown.digits
    digits.take 1 ++ '.' :: (digits.drop 1).take places ++ Decimal.exponentPart shown.exponent)
    ('0' :: '.' :: List.replicate places '0' ++ ['e', '+', '0', '0']) x

/-- A number as text, cut at its point and before its exponent. -/
structure Cut where
  whole : String
  fraction : String
  /-- The sign and the digits of the exponent. -/
  exponent : String

/-- Cuts the text of a number. -/
def Cut.ofText (text : String) : Cut :=
  let (number, exponent) := text.toList.span (· != 'e')
  let (whole, fraction) := number.span (· != '.')
  { whole := String.ofList whole
    fraction := String.ofList (fraction.drop 1)
    exponent := String.ofList (exponent.drop 1) }

/-- An exponent with zeros between its sign and its digits, up to a length. -/
def padExponent (width : Nat) (exponent : String) : String :=
  let digits := exponent.toList.drop 1
  String.ofList (exponent.toList.take 1 ++ List.replicate (width - exponent.length) '0' ++ digits)

/-- The least number from one on that takes an exponent, for numbers of a size in bits. -/
def largeFrom (bits : Nat) : Float :=
  if bits ≤ 16 then 1e3 else if bits ≤ 32 then 1e6 else 1e8

/-- Whether numbers of a size in bits are shown with exponents. -/
def needsExponent (bits : Nat) (xs : List Float) : Bool :=
  match (xs.filter fun x => x.isFinite && x != 0.0).map Float.abs with
  | [] => false
  | m :: ms =>
    let largest := ms.foldl max m
    let smallest := ms.foldl min m
    largeFrom bits ≤ largest || smallest < roundTo bits 1e-4
      || roundTo bits (largest / smallest) > 1000.0

/-- A number with a plus in front if it is not negative. -/
def withPlus (text : String) : String :=
  if text.startsWith "-" then text else "+" ++ text

/-- Real numbers, all of one layout, with a sign in front of all of them if `signed`. -/
def columns (bits : Nat) (signed : Bool) (xs : List Float) : List String :=
  let sign := if signed then withPlus else id
  let finite := xs.filter Float.isFinite
  let hasExponent := needsExponent bits finite
  let first := finite.map fun x =>
    Cut.ofText (sign (if hasExponent then exponentText bits x else positionalText bits x))
  let places := widest (first.map (·.fraction))
  let exponent := widest (first.map (·.exponent))
  let rest := places + 1 + (if hasExponent then exponent + 1 else 0)
  let infinity := if signed || xs.any (fun x => x.isInf && x < 0.0) then 4 else 3
  let others := if xs.all Float.isFinite then 0 else infinity - rest
  let whole := max (widest (first.map (·.whole))) others
  xs.map fun x =>
    if !x.isFinite then padLeft (whole + rest) (sign (Decimal.shortest x))
    else if hasExponent then
      let c := Cut.ofText (sign (exponentTextTo bits places x))
      padLeft whole c.whole ++ "." ++ c.fraction ++ "e" ++ padExponent exponent c.exponent
    else
      let c := Cut.ofText (sign (positionalText bits x))
      padLeft whole c.whole ++ "." ++ padRight ' ' places c.fraction

/-- The blanks at the end of a text. -/
def trailingBlanks (text : String) : Nat :=
  (text.toList.reverse.takeWhile (· = ' ')).length

/-- Marks an imaginary part, before the blanks at its end. -/
def markImaginary (text : String) : String :=
  let blanks := trailingBlanks text
  String.ofList (text.toList.take (text.length - blanks)) ++ "j"
    ++ String.ofList (List.replicate blanks ' ')

/-- Complex numbers, all of one layout. The size in bits is that of one part. -/
def complexColumns (bits : Nat) (zs : List (Float × Float)) : List String :=
  List.zipWith (· ++ ·) (columns bits false (zs.map (·.1)))
    ((columns bits true (zs.map (·.2))).map markImaginary)

end LinearSystems.RealText
