import Rulebook.Plain.Basic
import Rulebook.Number.Display
import Rulebook.Text.Printable

/-!
# Plain data in messages

How messages show plain data. A text stands between single quotes, or between double quotes when
that spares escapes; what cannot be printed is shown by its code point.
-/

namespace Rulebook

namespace Text

def hexDigit (value : Nat) : Char :=
  if value < 10 then Char.ofNat (48 + value) else Char.ofNat (87 + value)

/-- The last hexadecimal digits of a number, as many as asked for. -/
def hexDigits : Nat → Nat → List Char
  | 0, _ => []
  | width + 1, n => hexDigits width (n / 16) ++ [hexDigit (n % 16)]

def shownChar (quote : Char) (c : Char) : List Char :=
  if c = quote || c = '\\' then ['\\', c]
  else if c = '\n' then ['\\', 'n']
  else if c = '\r' then ['\\', 'r']
  else if c = '\t' then ['\\', 't']
  else if isPrintable c then [c]
  else if c.toNat < 0x100 then '\\' :: 'x' :: hexDigits 2 c.toNat
  else if c.toNat < 0x10000 then '\\' :: 'u' :: hexDigits 4 c.toNat
  else '\\' :: 'U' :: hexDigits 8 c.toNat

/-- A text as messages show it. Double quotes are taken when it holds single quotes only. -/
def shown (text : String) : String :=
  let cs := text.toList
  let quote := if cs.contains '\'' && !cs.contains '"' then '"' else '\''
  String.ofList (quote :: (cs.flatMap (shownChar quote) ++ [quote]))

def shownHalf (code : Nat) : List Char :=
  '\\' :: 'u' :: hexDigits 4 code

def HalfText.shown (half : HalfText) : String :=
  let cs := half.text.toList
  let quote := if cs.contains '\'' && !cs.contains '"' then '"' else '\''
  let shownPart (part : Char × Option Nat) : List Char :=
    match part.2 with
    | some code => shownHalf code
    | none => shownChar quote part.1
  String.ofList (quote :: (half.parts.flatMap shownPart ++ [quote]))

def shownByte (quote : Char) (byte : UInt8) : List Char :=
  let c := Char.ofNat byte.toNat
  if c.toNat < 0x7F then shownChar quote c else '\\' :: 'x' :: hexDigits 2 c.toNat

/-- Bytes as messages show them: those of printable characters by the character. -/
def shownBytes (data : List UInt8) : String :=
  let quote := if data.contains 39 && !data.contains 34 then '"' else '\''
  String.ofList ('b' :: quote :: (data.flatMap (shownByte quote) ++ [quote]))

end Text

def Date.shown (date : Date) : String :=
  "datetime.date(" ++ ", ".intercalate ([date.year, date.month, date.day].map toString) ++ ")"

/-- The distance from the standard time as messages show it: days, which round down, and the seconds
that are left. -/
def offsetShown (offset : Int) : String :=
  if offset = 0 then "datetime.timezone.utc"
  else
    let days := if offset < 0 then "days=-1, " else ""
    let seconds := if offset < 0 then offset + secondsPerDay else offset
    "datetime.timezone(datetime.timedelta(" ++ days ++ "seconds=" ++ toString seconds ++ "))"

/-- A moment as messages show it: seconds and microseconds are left out from the end where they are
zero. -/
def Moment.shown (moment : Moment) : String :=
  let finest :=
    if moment.microsecond ≠ 0 then [moment.second, moment.microsecond]
    else if moment.second ≠ 0 then [moment.second]
    else []
  let parts :=
    [moment.date.year, moment.date.month, moment.date.day, moment.hour, moment.minute] ++ finest
  let zone :=
    match moment.offset? with
    | none => []
    | some offset => ["tzinfo=" ++ offsetShown offset]
  "datetime.datetime(" ++ ", ".intercalate (parts.map toString ++ zone) ++ ")"

def Foreign.shown : Foreign → String
  | bytes data => Text.shownBytes data
  | date day => day.shown
  | moment time => time.shown
  | halfText half => half.shown
  | datum => "<" ++ datum.typeName ++ " object>"

namespace Plain

mutual

def shown : Plain → String
  | none => "None"
  | bool holds => if holds then "True" else "False"
  | integer n => toString n
  | real x => Number.text x
  | text s => Text.shown s
  | list items => "[" ++ ", ".intercalate (shownItems items) ++ "]"
  | tuple [item] => "(" ++ shown item ++ ",)"
  | tuple items => "(" ++ ", ".intercalate (shownItems items) ++ ")"
  | mapping entries => "\x7b" ++ ", ".intercalate (shownEntries entries) ++ "\x7d"
  | foreign datum => datum.shown

def shownItems : List Plain → List String
  | [] => []
  | item :: items => shown item :: shownItems items

def shownEntries : List (Plain × Plain) → List String
  | [] => []
  | (key, datum) :: entries => (shown key ++ ": " ++ shown datum) :: shownEntries entries

end

end Plain

end Rulebook
