import Rulebook.Calendar.Written
import Rulebook.Number.Reading

/-!
# Types of nodes

The types of nodes. A scalar without quotes and without a tag is null, a truth value, a number, a
day or a moment if it is written like one, and a text otherwise.
-/

namespace Rulebook.Yaml

/-- The type of a node. The standard value and the merge are types of keys with a meaning of their
own. -/
inductive Tag where
  | null
  | truth
  | integer
  | real
  | text
  | bytes
  | time
  | list
  | mapping
  | set
  | orderedMapping
  | pairs
  | merge
  | standardValue
  | unknown
deriving DecidableEq

namespace Tag

def standardNames : String := "tag:yaml.org,2002:"

def standard : List (String × Tag) :=
  [("null", null), ("bool", truth), ("int", integer), ("float", real), ("str", text),
    ("binary", bytes), ("timestamp", time), ("seq", list), ("map", mapping), ("set", set),
    ("omap", orderedMapping), ("pairs", pairs), ("merge", merge), ("value", standardValue)]

def ofName (name : String) : Tag :=
  match standard.find? fun type => name == standardNames ++ type.1 with
  | some (_, tag) => tag
  | none => unknown

end Tag

/-! ### Types by the way of writing -/

def nullWords : List String := ["", "~", "null", "Null", "NULL"]

def truthWords : List String :=
  ["yes", "Yes", "YES", "no", "No", "NO", "true", "True", "TRUE", "false", "False", "FALSE",
    "on", "On", "ON", "off", "Off", "OFF"]

def isRun (isPart : Char → Bool) (cs : List Char) : Bool :=
  !cs.isEmpty && cs.all isPart

def isDigitPart (c : Char) : Bool :=
  c.isDigit || c == '_'

def isDigits (cs : List Char) : Bool :=
  (cs.head?.map Char.isDigit).getD false && cs.all isDigitPart

def splitColons : List Char → List (List Char)
  | [] => [[]]
  | ':' :: cs => [] :: splitColons cs
  | c :: cs =>
    match splitColons cs with
    | [] => [[c]]
    | part :: parts => (c :: part) :: parts

def isSixtieth (cs : List Char) : Bool :=
  match cs with
  | [c] => c.isDigit
  | [c, d] => '0' ≤ c && c ≤ '5' && d.isDigit
  | _ => false

/-- Digits, a colon and a number of sixtieths, perhaps more of these. -/
def isSixtyBased (cs : List Char) : Bool :=
  match splitColons cs with
  | whole :: part :: parts => isDigits whole && (part :: parts).all isSixtieth
  | _ => false

def isInteger (cs : List Char) : Bool :=
  match (Number.readSign cs).2 with
  | '0' :: 'b' :: digits => isRun (fun c => c == '0' || c == '1' || c == '_') digits
  | '0' :: 'x' :: digits =>
    isRun (fun c => isDigitPart c || ('a' ≤ c.toLower && c.toLower ≤ 'f')) digits
  | '0' :: digits => digits.all fun c => ('0' ≤ c && c ≤ '7') || c == '_'
  | digits => isDigits digits || isSixtyBased digits

def isExponent : List Char → Bool
  | [] => true
  | mark :: sign :: digits =>
    (mark == 'e' || mark == 'E') && (sign == '+' || sign == '-') && isRun Char.isDigit digits
  | _ => false

/-- Whether what stands behind the point of a number is digits and an exponent. -/
def isFraction (cs : List Char) : Bool :=
  isExponent (cs.dropWhile isDigitPart)

/-- Whether a text is written like a floating-point number. It has a point, which no sign may stand
before directly. -/
def isReal (cs : List Char) : Bool :=
  let magnitude := (Number.readSign cs).2
  let whole := magnitude.takeWhile (· != '.')
  match magnitude.dropWhile (· != '.') with
  | '.' :: fraction =>
    let word := String.ofList fraction
    if whole.isEmpty then
      ["inf", "Inf", "INF"].contains word ||
        (cs.length == magnitude.length &&
          (["nan", "NaN", "NAN"].contains word ||
            ((fraction.head?.map Char.isDigit).getD false && isFraction fraction)))
    else
      (isDigits whole && isFraction fraction) ||
        (isSixtyBased whole && fraction.all isDigitPart)
  | _ => false

/-- Whether a text is written like a day or a moment. Without a time of day, month and day must have
two digits. -/
def isTime (cs : List Char) : Bool :=
  match Calendar.read? cs with
  | some written => written.twoDigits || written.time?.isSome
  | none => false

def withoutLineFeed (cs : List Char) : List Char :=
  if cs.getLast? = some '\n' then cs.dropLast else cs

/-- The type of a scalar without quotes. A line feed at its end has no weight. -/
def tagOfText (text : String) : Tag :=
  let cs := withoutLineFeed text.toList
  let word := String.ofList cs
  if truthWords.contains word then .truth
  else if isReal cs then .real
  else if isInteger cs then .integer
  else if word = "<<" then .merge
  else if nullWords.contains word && (text.isEmpty || !cs.isEmpty) then .null
  else if isTime cs then .time
  else if word = "=" then .standardValue
  else .text

end Rulebook.Yaml
