import Rulebook.Number.Decimal

/-!
# Texts of numbers

Texts of numbers: the one used in messages, and the literal of the rule language, which has no
form with an exponent.
-/

namespace Rulebook.Number

/-- Digits filled up with zeros on the left. -/
def padded (width : Nat) (n : Nat) : List Char :=
  let written := digits n
  List.replicate (width - written.length) '0' ++ written

def integerText (n : Int) : List Char :=
  if n < 0 then '-' :: digits n.natAbs else digits n.natAbs

/-- A decimal point is written out from the fourth place behind it to the sixteenth before it. -/
def isPositional (leading : Int) : Bool :=
  -4 ≤ leading && leading < 16

/-- A positive decimal with its point written out: at least one digit on either side of it. -/
def positional (decimal : Decimal) : List Char :=
  let written := digits decimal.significand
  let place := decimal.exponent + written.length
  if place ≤ 0 then
    '0' :: '.' :: (List.replicate (-place).toNat '0' ++ written)
  else if written.length ≤ place.toNat then
    written ++ List.replicate (place.toNat - written.length) '0' ++ ['.', '0']
  else written.take place.toNat ++ '.' :: written.drop place.toNat

/-- A positive decimal with one digit before the point and an exponent of at least two digits. -/
def scientific (decimal : Decimal) : List Char :=
  let written := digits decimal.significand
  let leading := decimal.exponent + written.length - 1
  let fraction := written.drop 1
  let mantissa := written.take 1 ++ if fraction.isEmpty then [] else '.' :: fraction
  let sign := if leading < 0 then '-' else '+'
  mantissa ++ 'e' :: sign :: padded 2 leading.natAbs

/-- The text of a decimal, positional where its leading place allows it. -/
def decimalText (decimal : Decimal) : List Char :=
  let leading := decimal.exponent + (digits decimal.significand).length - 1
  if decimal.significand = 0 then ['0', '.', '0']
  else if isPositional leading then positional decimal
  else scientific decimal

def signed (negative : Bool) (text : List Char) : List Char :=
  if negative then '-' :: text else text

/-- The text of a number in messages: the fewest digits that are read back as the number. -/
def text (x : Float) : String :=
  String.ofList <|
    match parts x with
    | .notANumber => ['n', 'a', 'n']
    | .infinite negative => signed negative ['i', 'n', 'f']
    | .finite negative mantissa exponent =>
      signed negative (decimalText (Decimal.shortest mantissa exponent))

/-- Places behind the point in the literal of a number that is too great or too small to be
written positionally. -/
def literalPlaces : Nat := 20

/-- The number of units of the last of these places in one. -/
def literalUnits : Nat := Nat.pow 10 literalPlaces

/-- A magnitude rounded to the places of a literal, without zeros at the end of its fraction. -/
def fixedPlaces (mantissa : Nat) (exponent : Int) : List Char :=
  let (numerator, denominator) := quotient mantissa exponent
  let units := roundedQuotient (numerator * literalUnits) denominator
  let fraction := padded literalPlaces (units % literalUnits)
  let kept := (fraction.reverse.dropWhile (· == '0')).reverse
  digits (units / literalUnits) ++ if kept.isEmpty then [] else '.' :: kept

/-- Whole numbers below this bound are written with their digits alone. -/
def wholeBound : Nat := 10000000000000000

def literal (x : Float) : String :=
  String.ofList <|
    match parts x, whole? x with
    | .finite negative mantissa exponent, some whole =>
      if whole.natAbs < wholeBound then integerText whole
      else signed negative (fixedPlaces mantissa exponent)
    | .finite negative mantissa exponent, none =>
      let decimal := Decimal.shortest mantissa exponent
      let leading := decimal.exponent + (digits decimal.significand).length - 1
      if isPositional leading then signed negative (positional decimal)
      else signed negative (fixedPlaces mantissa exponent)
    | _, _ => (text x).toList

end Rulebook.Number
