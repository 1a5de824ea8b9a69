import Rulebook.Calendar.Moment
import Rulebook.Text.CharacterClass

/-!
# Written days and moments

How days and moments are written: `2001-12-14` for a day; for a moment then a `T` or blanks, the
time of day as `21:59:43.10` and the offset as `Z`, `-5` or `+05:30`. A text of this form may still
name a day or a time that does not exist.
-/

namespace Rulebook.Calendar

/-- A time of day as it is written. The fraction of a second is kept as digits. -/
structure WrittenTime where
  hour : Nat
  minute : Nat
  second : Nat
  fraction : List Char
  offset? : Option Int

/-- A day as it is written, with a time of day or without one. -/
structure Written where
  year : Nat
  month : Nat
  day : Nat
  twoDigits : Bool
  time? : Option WrittenTime

/-- Takes a number from the start of a text. Of its digits at least and at most so many are
taken. -/
def takeNumber (least most : Nat) (cs : List Char) : Option (Nat × List Char) :=
  let digits := (cs.take most).takeWhile Char.isDigit
  if digits.length < least then none
  else some (Text.digitsValue digits, cs.drop digits.length)

def takeMark (mark : Char) : List Char → Option (List Char)
  | c :: cs => if c = mark then some cs else none
  | [] => none

/-- Takes what parts a day from the time of day: a letter or blanks. -/
def takeDivider : List Char → Option (List Char)
  | c :: cs =>
    if c = 'T' ∨ c = 't' then some cs
    else if Text.isSpacing c then some (cs.dropWhile Text.isSpacing)
    else none
  | [] => none

/-- Reads all that is left of a text as an offset: nothing, the letter for standard time, or a sign
and hours, perhaps with minutes. -/
def readOffset? (cs : List Char) : Option (Option Int) :=
  match cs.dropWhile Text.isSpacing with
  | [] => if cs.isEmpty then some none else none
  | ['Z'] => some (some 0)
  | sign :: rest =>
    if sign = '+' ∨ sign = '-' then do
      let (hours, rest) ← takeNumber 1 2 rest
      let (minutes, rest) ←
        match rest with
        | ':' :: rest => takeNumber 2 2 rest
        | _ => some (0, rest)
      let seconds : Int := (hours * 60 + minutes) * 60
      if rest.isEmpty then some (some (if sign = '-' then -seconds else seconds)) else none
    else none

def readTime? (cs : List Char) : Option WrittenTime := do
  let (hour, cs) ← takeNumber 1 2 cs
  let cs ← takeMark ':' cs
  let (minute, cs) ← takeNumber 2 2 cs
  let cs ← takeMark ':' cs
  let (second, cs) ← takeNumber 2 2 cs
  let (fraction, cs) :=
    match cs with
    | '.' :: cs => (cs.takeWhile Char.isDigit, cs.dropWhile Char.isDigit)
    | _ => ([], cs)
  let offset? ← readOffset? cs
  some ⟨hour, minute, second, fraction, offset?⟩

def read? (cs : List Char) : Option Written := do
  let (year, cs) ← takeNumber 4 4 cs
  let cs ← takeMark '-' cs
  let (month, afterMonth) ← takeNumber 1 2 cs
  let cs' ← takeMark '-' afterMonth
  let (day, afterDay) ← takeNumber 1 2 cs'
  let twoDigits := cs.length == afterMonth.length + 2 && cs'.length == afterDay.length + 2
  if afterDay.isEmpty then some ⟨year, month, day, twoDigits, none⟩
  else
    let time ← readTime? (← takeDivider afterDay)
    some ⟨year, month, day, twoDigits, some time⟩

/-- The first six digits of a fraction of a second, as microseconds. -/
def microseconds (fraction : List Char) : Nat :=
  Text.digitsValue ((fraction ++ List.replicate 6 '0').take 6)

namespace Written

/-- The day that is written, if it exists. -/
def date? (written : Written) : Option Date :=
  Date.ofParts? written.year written.month written.day

/-- The moment at a time of the day that is written, if both exist. -/
def moment? (written : Written) (time : WrittenTime) : Option Moment := do
  let date ← written.date?
  Moment.ofParts? date time.hour time.minute time.second (microseconds time.fraction) time.offset?

end Written

end Rulebook.Calendar
