import Rulebook.Yaml.Cursor
import Rulebook.Yaml.Tag

/-!
# Numbers in YAML

The numbers that scalars write. Underscores have no weight. An integer may be written in base two,
eight, ten or sixteen; colons separate the digits of base sixty.
-/

namespace Rulebook.Yaml

def joined (cs : List Char) : List Char :=
  cs.filter (· != '_')

/-- The value of a digit in a base up to sixteen: a decimal digit of any script, or a letter. -/
def baseDigit? (c : Char) : Option Nat :=
  match Text.digitValue? c with
  | some value => some value
  | none =>
    let letter := c.toLower
    if 'a' ≤ letter ∧ letter ≤ 'f' then some (letter.toNat - 87) else none

def digitsIn? (base : Nat) (cs : List Char) : Option Nat :=
  if cs.isEmpty then none
  else
    cs.foldlM
      (fun value c => (baseDigit? c).bind fun digit =>
        if digit < base then some (base * value + digit) else none)
      0

def integerIn? (base : Nat) (letters : List Char) (cs : List Char) : Option Int :=
  let (negative, digits) := Number.readSign (Number.stripSpace cs)
  let digits :=
    match digits with
    | '0' :: letter :: more => if letters.contains letter then more else digits
    | _ => digits
  (digitsIn? base digits).map (Number.withSign negative)

/-- The integer that the digits of base sixty make up, most significant digit first. -/
def integerOfSixtieths (digits : List Int) : Int :=
  digits.foldl (fun value digit => 60 * value + digit) 0

def magnitude? (cs : List Char) : Option Int :=
  match cs with
  | ['0'] => some 0
  | '0' :: 'b' :: digits => integerIn? 2 ['b', 'B'] digits
  | '0' :: 'x' :: digits => integerIn? 16 ['x', 'X'] digits
  | '0' :: _ => integerIn? 8 ['o', 'O'] cs
  | _ =>
    if cs.contains ':' then
      ((splitColons cs).mapM Number.readInteger?).map integerOfSixtieths
    else Number.readInteger? cs

def integerOf (text : String) : Except Fault Int :=
  let (negative, cs) := Number.readSign (joined text.toList)
  if cs.isEmpty then .error .noDigits
  else
    match magnitude? cs with
    | some n => .ok (if negative then -n else n)
    | none => .error .noSuchValue

/-- Adds up digits of base sixty, least significant digit first, to a number. -/
def addSixtieths (sum : Float) (base : Nat) : List Float → Except Fault Float
  | [] => .ok sum
  | digit :: digits =>
    match Number.ofInt? base with
    | some factor => addSixtieths (sum + digit * factor) (60 * base) digits
    | none => .error .outOfBounds

def magnitudeOfReal (cs : List Char) : Except Fault Float :=
  let word := String.ofList (cs.map Char.toLower)
  if word = ".inf" then .ok (Number.ofMagnitude false Number.infinityBits)
  else if word = ".nan" then .ok (0 / 0)
  else if cs.contains ':' then
    match (splitColons cs).mapM Number.readFloat? with
    | some digits => addSixtieths 0 1 digits.reverse
    | none => .error .noSuchValue
  else
    match Number.readFloat? cs with
    | some x => .ok x
    | none => .error .noSuchValue

def realOf (text : String) : Except Fault Float :=
  let written := joined text.toList
  let (negative, cs) := Number.readSign written
  if written.isEmpty then .error .noDigits
  else (magnitudeOfReal cs).map fun x => if negative then -1 * x else x

end Rulebook.Yaml
