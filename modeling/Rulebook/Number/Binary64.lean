/-!
# Floating-point numbers

Floating-point numbers as exact rational numbers, and rational numbers rounded to the nearest
floating-point number. A finite number is a mantissa times a power of two, read from its bits; the
bits of two numbers of one sign compare as the numbers do, which makes rounding a computation on
natural numbers.
-/

namespace Rulebook.Number

/-- What a floating-point number stands for. -/
inductive Parts where
  | notANumber
  | infinite (negative : Bool)
  | finite (negative : Bool) (mantissa : Nat) (exponent : Int)
deriving DecidableEq, Repr

/-- The least exponent of two: every finite number is a multiple of two to its power. -/
def leastExponent : Int := -1074

/-- The bits of infinity, which follow those of the greatest finite number. -/
def infinityBits : Nat := 0x7FF0000000000000

/-- The bit of the sign, which stands before all others: two to the power of 63. -/
def signBit : Nat := 0x8000000000000000

/-- The least mantissa of 53 binary digits: two to the power of 52. The bits of a fraction are less,
and those of an exponent are its multiples. -/
def leastMantissa : Nat := 0x10000000000000

/-- The bits of the exponent of infinity, which is no exponent of a number. -/
def greatestField : Nat := 2047

/-- A number's sign, mantissa and exponent of two. -/
def parts (x : Float) : Parts :=
  let bits := x.toBits.toNat
  let negative := decide (signBit ≤ bits)
  let field : Nat := bits / leastMantissa % (greatestField + 1)
  let fraction := bits % leastMantissa
  if field = greatestField then
    if fraction = 0 then .infinite negative else .notANumber
  else if field = 0 then .finite negative fraction leastExponent
  else .finite negative (leastMantissa + fraction) ((field : Int) + leastExponent - 1)

/-- A quotient rounded to the nearest whole number, a half to the even one of its neighbours. -/
def roundedQuotient (numerator denominator : Nat) : Nat :=
  let quotient := numerator / denominator
  let rest := numerator % denominator
  if 2 * rest < denominator then quotient
  else if denominator < 2 * rest then quotient + 1
  else quotient + quotient % 2

/-- A quotient times a power of a base, as a quotient. -/
def scaled (base : Nat) (exponent : Int) (numerator denominator : Nat) : Nat × Nat :=
  if 0 ≤ exponent then (numerator * base.pow exponent.toNat, denominator)
  else (numerator, denominator * base.pow (-exponent).toNat)

/-- The exponent of two at which a quotient has a mantissa of 53 binary digits, or the least one
for quotients that are too small for that. -/
def exponentFor (numerator denominator : Nat) : Int :=
  let low := max ((numerator.log2 : Int) - denominator.log2 - 53) leastExponent
  let (top, bottom) := scaled 2 (-low) numerator denominator
  if 2 * leastMantissa ≤ top / bottom then low + 1 else low

/-- The bits of the number nearest to a quotient, a half to the even mantissa; beyond the finite
numbers those of infinity. A mantissa rounded up to 54 digits moves on to the next exponent by
itself, since exponent and mantissa stand side by side. -/
def nearestBits (numerator denominator : Nat) : Nat :=
  if numerator = 0 then 0
  else
    let exponent := exponentFor numerator denominator
    let (top, bottom) := scaled 2 (-exponent) numerator denominator
    min ((exponent - leastExponent).toNat * leastMantissa + roundedQuotient top bottom) infinityBits

def ofMagnitude (negative : Bool) (magnitude : Nat) : Float :=
  Float.ofBits (UInt64.ofNat (if negative then magnitude + signBit else magnitude))

/-- The number nearest to a quotient. -/
def nearest (negative : Bool) (numerator denominator : Nat) : Float :=
  ofMagnitude negative (nearestBits numerator denominator)

/-- The number nearest to an integer, unless it lies beyond the finite numbers. -/
def ofInt? (n : Int) : Option Float :=
  let magnitude := nearestBits n.natAbs 1
  if magnitude < infinityBits then some (ofMagnitude (decide (n < 0)) magnitude) else none

def quotient (mantissa : Nat) (exponent : Int) : Nat × Nat :=
  scaled 2 exponent mantissa 1

def withSign (negative : Bool) (magnitude : Nat) : Int :=
  if negative then -(magnitude : Int) else magnitude

def whole? (x : Float) : Option Int :=
  match parts x with
  | .finite negative mantissa exponent =>
    let (numerator, denominator) := quotient mantissa exponent
    if numerator % denominator = 0 then some (withSign negative (numerator / denominator))
    else none
  | _ => none

/-- A finite number without its fraction; the sign is kept. -/
def truncated? (x : Float) : Option Int :=
  match parts x with
  | .finite negative mantissa exponent =>
    let (numerator, denominator) := quotient mantissa exponent
    some (withSign negative (numerator / denominator))
  | _ => none

end Rulebook.Number
