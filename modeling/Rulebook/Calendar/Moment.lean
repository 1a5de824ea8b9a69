/-!
# Days and moments

Days of the calendar, from the first of January of the year 1 to the last of December of the year
9999, counted by the rule of leap years throughout. A moment is a day, a time of day to the
microsecond and, where it is known, the distance of the local time from the standard time. Two
moments with such a distance are the same if they are one instant, whatever the local times.
-/

namespace Rulebook

/-! ## Days -/

def isLeapYear (year : Nat) : Bool :=
  year % 4 == 0 && (year % 100 != 0 || year % 400 == 0)

def daysInMonth (year month : Nat) : Nat :=
  if month = 2 then if isLeapYear year then 29 else 28
  else if month = 4 ∨ month = 6 ∨ month = 9 ∨ month = 11 then 30
  else 31

def isDay (year month day : Nat) : Bool :=
  1 ≤ year && year ≤ 9999 && 1 ≤ month && month ≤ 12 && 1 ≤ day && day ≤ daysInMonth year month

/-- A day of the calendar. -/
structure Date where
  year : Nat
  month : Nat
  day : Nat
  valid : isDay year month day = true
deriving DecidableEq

namespace Date

def ofParts? (year month day : Nat) : Option Date :=
  if valid : isDay year month day = true then some ⟨year, month, day, valid⟩ else none

def daysBeforeMonth (year month : Nat) : Nat :=
  (List.range (month - 1)).foldl (fun days before => days + daysInMonth year (before + 1)) 0

/-- The number of days before a day, from the first of January of the year 1. -/
def daysBefore (date : Date) : Nat :=
  let years := date.year - 1
  365 * years + years / 4 - years / 100 + years / 400 + daysBeforeMonth date.year date.month +
    (date.day - 1)

end Date

/-! ## Moments -/

def secondsPerDay : Nat := 86400

/-- Whether there is such a time of day, and the local time is less than a day apart from the
standard time. -/
def isTime (hour minute second microsecond : Nat) (offset? : Option Int) : Bool :=
  hour < 24 && minute < 60 && second < 60 && microsecond < 1000000 &&
    offset?.all fun offset => offset.natAbs < secondsPerDay

/-- A moment. The offset is how many seconds local time is ahead of standard time. -/
structure Moment where
  date : Date
  hour : Nat
  minute : Nat
  second : Nat
  microsecond : Nat
  offset? : Option Int
  valid : isTime hour minute second microsecond offset? = true
deriving DecidableEq

namespace Moment

def ofParts? (date : Date) (hour minute second microsecond : Nat) (offset? : Option Int) :
    Option Moment :=
  if valid : isTime hour minute second microsecond offset? = true then
    some ⟨date, hour, minute, second, microsecond, offset?, valid⟩
  else none

/-- The number of seconds of local time before a moment, from the first day on. -/
def localSeconds (moment : Moment) : Nat :=
  moment.date.daysBefore * secondsPerDay + moment.hour * 3600 + moment.minute * 60 + moment.second

/-- Whether two moments are the same. Where one offset alone is known they cannot be compared, and
count as different. -/
def same (left right : Moment) : Bool :=
  left.microsecond == right.microsecond &&
    match left.offset?, right.offset? with
    | none, none => left.localSeconds == right.localSeconds
    | some ahead, some behind =>
      (left.localSeconds : Int) - ahead == (right.localSeconds : Int) - behind
    | _, _ => false

end Moment

end Rulebook
