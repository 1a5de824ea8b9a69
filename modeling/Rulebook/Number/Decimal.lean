import Rulebook.Number.Binary64
import Rulebook.Text.CharacterClass

/-!
# Decimals

Decimal numbers: a significand times a power of ten. Each floating-point magnitude has a shortest
decimal, the one with the fewest digits that is read back as that magnitude.
-/

namespace Rulebook.Number

/-- A significand times a power of ten. -/
structure Decimal where
  significand : Nat
  exponent : Int
deriving DecidableEq, Repr

/-- The decimal digits of a number, most significant first; zero has the digit zero. -/
def digits (n : Nat) : List Char :=
  if n < 10 then [Text.latinDigit n]
  else digits (n / 10) ++ [Text.latinDigit n]
termination_by n

/-- The greatest number of digits of an integer that is read from a text or written as one. -/
def digitBound : Nat := 4300

/-- The text of an integer; `none` where it has too many digits. -/
def integerText? (n : Int) : Option String :=
  if digitBound < (digits n.natAbs).length then none else some (toString n)

namespace Decimal

def quotient (decimal : Decimal) : Nat × Nat :=
  scaled 10 decimal.exponent decimal.significand 1

/-- The bits of the magnitude nearest to a decimal. The two outer cases keep the powers of ten
small: there the value is beyond the finite numbers, or below half the least of them. -/
def bits (decimal : Decimal) : Nat :=
  let places : Int := (digits decimal.significand).length
  if decimal.significand = 0 then 0
  else if 400 < decimal.exponent + places then infinityBits
  else if decimal.exponent + places < -400 then 0
  else nearestBits decimal.quotient.1 decimal.quotient.2

/-- The floating-point number nearest to a decimal. -/
def toFloat (negative : Bool) (decimal : Decimal) : Float :=
  ofMagnitude negative decimal.bits

/-- The same value without zeros at the end of the significand. -/
def trim (decimal : Decimal) : Decimal :=
  if decimal.significand = 0 then ⟨0, 0⟩
  else if decimal.significand % 10 = 0 then
    trim ⟨decimal.significand / 10, decimal.exponent + 1⟩
  else decimal
termination_by decimal.significand
decreasing_by omega

/-- The number of places before the point of a positive quotient: the least `n` with the quotient
below ten to the power of `n`. The estimate from the binary logarithm is at most two too low. -/
def pointPlace (numerator denominator : Nat) : Int :=
  let estimate := ((numerator.log2 : Int) - denominator.log2 - 1) * 30103 / 100000 - 1
  let below (place : Int) : Bool :=
    let (top, bottom) := scaled 10 (-place) numerator denominator
    top < bottom
  if below estimate then estimate
  else if below (estimate + 1) then estimate + 1
  else if below (estimate + 2) then estimate + 2
  else estimate + 3

/-- The decimals with a given exponent next to a quotient: the nearer one first, and of two that
are equally near the even one. -/
def neighbours (numerator denominator : Nat) (exponent : Int) : List Decimal :=
  let (top, bottom) := scaled 10 (-exponent) numerator denominator
  let low := top / bottom
  if roundedQuotient top bottom = low then [⟨low, exponent⟩, ⟨low + 1, exponent⟩]
  else [⟨low + 1, exponent⟩, ⟨low, exponent⟩]

/-- The exact value of a magnitude. -/
def exact (mantissa : Nat) (exponent : Int) : Decimal :=
  if 0 ≤ exponent then ⟨mantissa * Nat.pow 2 exponent.toNat, 0⟩
  else ⟨mantissa * Nat.pow 5 (-exponent).toNat, exponent⟩

/-- The decimal with the fewest digits that is read back as a magnitude, and of these the nearest.
Seventeen digits always suffice; the exact value stands behind the search. -/
def shortest (mantissa : Nat) (exponent : Int) : Decimal :=
  let (numerator, denominator) := Number.quotient mantissa exponent
  let magnitude := nearestBits numerator denominator
  let place := pointPlace numerator denominator
  let found? := (List.range 17).findSome? fun (more : Nat) =>
    (neighbours numerator denominator (place - more - 1)).find? fun decimal =>
      decimal.bits = magnitude
  (found?.getD (exact mantissa exponent)).trim

end Decimal

end Rulebook.Number
