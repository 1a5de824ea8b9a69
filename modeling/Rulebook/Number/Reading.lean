import Rulebook.Number.Decimal
import Rulebook.Text.CharacterClass

/-!
# Reading numbers

Reading written numbers. White space around the number is dropped, digits of every script are
taken, and single underscores may separate digits.
-/

namespace Rulebook.Number

def stripSpace (cs : List Char) : List Char :=
  ((cs.dropWhile Text.isSpace).reverse.dropWhile Text.isSpace).reverse

/-- Takes a sign away; `true` for a minus. -/
def readSign : List Char → Bool × List Char
  | '-' :: cs => (true, cs)
  | '+' :: cs => (false, cs)
  | cs => (false, cs)

/-- Takes away underscores that stand between two digits; `none` when one stands elsewhere. -/
def joinDigits (previousDigit : Bool) : List Char → Option (List Char)
  | [] => some []
  | [c] => if c = '_' then none else some [c]
  | c :: d :: cs =>
    if c = '_' then
      if previousDigit && Text.isDigit d then joinDigits false (d :: cs) else none
    else (joinDigits (Text.isDigit c) (d :: cs)).map (c :: ·)

/-- A run of digits at the start of a text, and the rest. -/
def readDigits (cs : List Char) : List Char × List Char :=
  (cs.takeWhile Text.isDigit, cs.dropWhile Text.isDigit)

def readInteger? (cs : List Char) : Option Int := do
  let (negative, cs) := readSign (stripSpace cs)
  let cs ← joinDigits false cs
  if cs.isEmpty || !cs.all Text.isDigit || digitBound < cs.length then none
  else some (withSign negative (Text.digitsValue cs))

/-- An exponent of ten: nothing, or a mark, a sign and digits. -/
def readExponent? : List Char → Option Int
  | [] => some 0
  | mark :: cs =>
    if mark = 'e' || mark = 'E' then
      let (negative, cs) := readSign cs
      if cs.isEmpty || !cs.all Text.isDigit then none
      else some (withSign negative (Text.digitsValue cs))
    else none

def readDecimal? (cs : List Char) : Option Decimal := do
  let (whole, rest) := readDigits cs
  let (fraction, rest) :=
    match rest with
    | '.' :: behind => readDigits behind
    | _ => ([], rest)
  if whole.isEmpty && fraction.isEmpty then none
  else
    let exponent ← readExponent? rest
    some ⟨Text.digitsValue (whole ++ fraction), exponent - fraction.length⟩

/-- A number in decimal notation, or one of the words for infinity and for what is not a number. -/
def readFloat? (cs : List Char) : Option Float := do
  let cs ← joinDigits false (stripSpace cs)
  let (negative, cs) := readSign cs
  let word := cs.map Char.toLower
  if word = ['i', 'n', 'f'] || word = ['i', 'n', 'f', 'i', 'n', 'i', 't', 'y'] then
    some (ofMagnitude negative infinityBits)
  else if word = ['n', 'a', 'n'] then some (Float.ofBits 0x7FF8000000000000)
  else (readDecimal? cs).map (Decimal.toFloat negative)

end Rulebook.Number
