import Rulebook.Proofs.Calendar.Counting
import Rulebook.Proofs.Number.LiteralValue
import Rulebook.Yaml.Node

/-!
# Days and moments written and read back

Each day, and each moment whose distance from the standard time is whole minutes, has a text from
which it is read back: its parts with as many digits as their greatest value has. In a document such
a text needs no quotes and no tag to stand for the day or the moment, since it is written like no
number and like no word with a meaning of its own.
-/

namespace Rulebook

open Number (padded)

namespace Calendar

/-! ## Texts of days and moments -/

def dayText (date : Date) : List Char :=
  padded 4 date.year ++ '-' :: (padded 2 date.month ++ '-' :: padded 2 date.day)

/-- A sign with hours and minutes. -/
def signedText (sign : Char) (minutes : Nat) : List Char :=
  sign :: (padded 2 (minutes / 60) ++ ':' :: padded 2 (minutes % 60))

/-- The distance from the standard time, or nothing where it is not known. -/
def offsetText : Option Int → List Char
  | none => []
  | some offset => signedText (if offset < 0 then '-' else '+') (offset.natAbs / 60)

def timeText (moment : Moment) : List Char :=
  padded 2 moment.hour ++ ':' :: (padded 2 moment.minute ++ ':' :: (padded 2 moment.second ++
    '.' :: (padded 6 moment.microsecond ++ offsetText moment.offset?)))

def momentText (moment : Moment) : List Char :=
  dayText moment.date ++ 'T' :: timeText moment

/-- Whether the distance from the standard time has no seconds. Others have no written form. -/
def HasWholeMinutes (moment : Moment) : Prop :=
  ∀ offset ∈ moment.offset?, offset % 60 = 0

/-! ## Reading their parts -/

section Parts

variable {least width n : Nat}

/-- A number that is written with all its places is read whatever comes behind it, since no more
places than these are looked at. -/
theorem takeNumber_padded (rest : List Char) (fits : n < 10 ^ width) (positive : 0 < width)
    (enough : least ≤ width) :
    takeNumber least width (padded width n ++ rest) = some (n, rest) := by
  have length : (padded width n).length = width := Number.length_padded fits positive
  have taken : (padded width n ++ rest).take width = padded width n := List.take_left' length
  have digits : (padded width n).takeWhile Char.isDigit = padded width n :=
    List.takeWhile_eq_self_iff.mpr fun _ => Number.isLatin_of_mem_padded
  have notShort : ¬ (padded width n).length < least := by omega
  simp only [takeNumber, taken, digits, if_neg notShort, Number.digitsValue_padded,
    List.drop_left]

@[simp]
theorem takeMark_cons (mark : Char) (cs : List Char) : takeMark mark (mark :: cs) = some cs :=
  if_pos rfl

private theorem readOffset?_signedText {sign : Char} {minutes : Nat}
    (signs : sign = '+' ∨ sign = '-') (inDay : minutes < 24 * 60) :
    readOffset? (signedText sign minutes) =
      some (some (if sign = '-' then -((minutes * 60 : Nat) : Int) else (minutes * 60 : Nat))) := by
  have hours : minutes / 60 < 10 ^ 2 := by omega
  have lastMinutes : minutes % 60 < 10 ^ 2 := by omega
  have readHours := takeNumber_padded (':' :: padded 2 (minutes % 60)) hours (by decide)
    (show 1 ≤ 2 by decide)
  have readMinutes := takeNumber_padded [] lastMinutes (by decide) (Nat.le_refl 2)
  rw [List.append_nil] at readMinutes
  rcases signs with rfl | rfl
  all_goals
    simp [signedText, readOffset?, Text.isSpacing, readHours, readMinutes]
    exact_mod_cast Nat.div_add_mod' minutes 60

private theorem isDigit_head_offsetText (offset? : Option Int) :
    ∀ c ∈ (offsetText offset?).head?, c.isDigit = false := by
  intro c head
  cases offset? with
  | none => cases head
  | some offset =>
    obtain rfl : (if offset < 0 then '-' else '+') = c := Option.some.inj head
    split <;> decide

/-- A distance of whole minutes is read back from its text, and so is that there is none. -/
theorem readOffset?_offsetText {offset? : Option Int}
    (inDay : ∀ offset ∈ offset?, offset.natAbs < secondsPerDay)
    (minutes : ∀ offset ∈ offset?, offset % 60 = 0) :
    readOffset? (offsetText offset?) = some offset? := by
  cases offset? with
  | none => rfl
  | some offset =>
    have inDay : offset.natAbs < 86400 := inDay offset rfl
    have minutes : offset % 60 = 0 := minutes offset rfl
    have bounded : offset.natAbs / 60 < 24 * 60 := by omega
    have whole : offset.natAbs / 60 * 60 = offset.natAbs := by omega
    by_cases negative : offset < 0
    · rw [offsetText, if_pos negative, readOffset?_signedText (.inr rfl) bounded, whole,
        if_pos rfl, Int.ofNat_natAbs_of_nonpos (by omega), Int.neg_neg]
    · rw [offsetText, if_neg negative, readOffset?_signedText (.inl rfl) bounded, whole,
        if_neg (by decide), Int.natAbs_of_nonneg (by omega)]

end Parts

/-! ## Reading a whole text -/

/-- The parts of a day as its text shows them, with a time of day or without one. -/
def partsOfDay (date : Date) (time? : Option WrittenTime) : Written :=
  ⟨date.year, date.month, date.day, true, time?⟩

/-- The time of day of a moment as its text shows it. -/
def partsOfTime (moment : Moment) : WrittenTime :=
  ⟨moment.hour, moment.minute, moment.second, padded 6 moment.microsecond, moment.offset?⟩

private theorem readTime?_timeText {moment : Moment} (minutes : HasWholeMinutes moment) :
    readTime? (timeText moment) = some (partsOfTime moment) := by
  obtain ⟨hour, minute, second, -, inDay⟩ := Moment.isTime_iff.mp moment.valid
  have digits : ∀ c ∈ padded 6 moment.microsecond, c.isDigit = true :=
    fun _ => Number.isLatin_of_mem_padded
  have stop := isDigit_head_offsetText moment.offset?
  have readHour (rest : List Char) := takeNumber_padded rest
    (show moment.hour < 10 ^ 2 by omega) (by decide) (show 1 ≤ 2 by decide)
  have readMinute (rest : List Char) := takeNumber_padded rest
    (show moment.minute < 10 ^ 2 by omega) (by decide) (Nat.le_refl 2)
  have readSecond (rest : List Char) := takeNumber_padded rest
    (show moment.second < 10 ^ 2 by omega) (by decide) (Nat.le_refl 2)
  simp [readTime?, timeText, readHour, readMinute, readSecond, takeWhile_append_of_head digits stop,
    dropWhile_append_of_head digits stop, readOffset?_offsetText inDay minutes, partsOfTime]

private theorem read?_dayText_append (date : Date) (rest : List Char) :
    read? (dayText date ++ rest) =
      if rest.isEmpty then some (partsOfDay date none)
      else ((takeDivider rest).bind readTime?).map fun time => partsOfDay date (some time) := by
  obtain ⟨year, month, -, day⟩ := Date.isDay_iff.mp date.valid
  have dayBound := Nat.le_trans day (Date.daysInMonth_le date.year date.month)
  have readYear (rest : List Char) := takeNumber_padded rest
    (show date.year < 10 ^ 4 by omega) (by decide) (Nat.le_refl 4)
  have readMonth (rest : List Char) := takeNumber_padded rest
    (show date.month < 10 ^ 2 by omega) (by decide) (show 1 ≤ 2 by decide)
  have readDay (rest : List Char) := takeNumber_padded rest
    (show date.day < 10 ^ 2 by omega) (by decide) (show 1 ≤ 2 by decide)
  have monthDigits : (padded 2 date.month).length = 2 :=
    Number.length_padded (by omega) (by decide)
  have dayDigits : (padded 2 date.day).length = 2 := Number.length_padded (by omega) (by decide)
  have monthPlaces : 2 + (rest.length + 2 + 1) = rest.length + 2 + 1 + 2 := Nat.add_comm _ _
  have dayPlaces : 2 + rest.length = rest.length + 2 := Nat.add_comm _ _
  simp [read?, dayText, readYear, readMonth, readDay, monthDigits, dayDigits, monthPlaces,
    dayPlaces, partsOfDay, Option.map_eq_bind, Option.bind_assoc]

/-- The text of a day is read as its year, month and day. -/
theorem read?_dayText (date : Date) : read? (dayText date) = some (partsOfDay date none) := by
  simpa using read?_dayText_append date []

/-- The text of a moment is read as its day and its time of day. -/
theorem read?_momentText {moment : Moment} (minutes : HasWholeMinutes moment) :
    read? (momentText moment) = some (partsOfDay moment.date (some (partsOfTime moment))) := by
  rw [momentText, read?_dayText_append]
  simp [takeDivider, readTime?_timeText minutes]

private theorem microseconds_padded {n : Nat} (fits : n < 1000000) :
    microseconds (padded 6 n) = n := by
  have length : (padded 6 n).length = 6 := Number.length_padded fits (by decide)
  rw [microseconds, List.take_left' length, Number.digitsValue_padded]

theorem time?_partsOfDay (date : Date) (time? : Option WrittenTime) :
    (partsOfDay date time?).time? = time? :=
  rfl

theorem date?_partsOfDay (date : Date) (time? : Option WrittenTime) :
    (partsOfDay date time?).date? = some date :=
  date.ofParts?_self

theorem moment?_partsOfTime (moment : Moment) :
    (partsOfDay moment.date (some (partsOfTime moment))).moment? (partsOfTime moment) =
      some moment := by
  obtain ⟨-, -, -, fits, -⟩ := Moment.isTime_iff.mp moment.valid
  simp [Written.moment?, date?_partsOfDay, partsOfTime, microseconds_padded fits,
    Moment.ofParts?, moment.valid]

end Calendar

namespace Yaml

/-! ## Texts that begin with a year -/

theorem splitColons_ne_nil (cs : List Char) : splitColons cs ≠ [] := by
  fun_induction splitColons cs <;> simp_all

/-- Where a text has no colon in its beginning, its first part goes on behind that. -/
theorem splitColons_append {cs : List Char} (rest : List Char) (noColon : ':' ∉ cs) :
    ∃ part parts, splitColons (cs ++ rest) = (cs ++ part) :: parts := by
  induction cs with
  | nil => exact List.exists_cons_of_ne_nil (splitColons_ne_nil rest)
  | cons c cs inductionHypothesis =>
    obtain ⟨part, parts, split⟩ := inductionHypothesis fun member => noColon (.tail c member)
    have notColon : c ≠ ':' := fun colon => noColon (colon ▸ .head cs)
    exact ⟨part, parts, by rw [List.cons_append, splitColons.eq_3 _ _ notColon, split]; rfl⟩

section Dated

variable {digits : List Char} (rest : List Char)

/-- Digits and a hyphen behind them are no digits of a number. -/
private theorem isDigits_eq_false (digits : List Char) :
    isDigits (digits ++ '-' :: rest) = false := by
  have hyphen : isDigitPart '-' = false := by decide
  simp [isDigits, hyphen]

private theorem isSixtyBased_eq_false (isDigit : ∀ c ∈ digits, c.isDigit = true) :
    isSixtyBased (digits ++ '-' :: rest) = false := by
  have noColon : ':' ∉ digits ++ ['-'] := by
    simp only [List.mem_append, List.mem_singleton, not_or]
    exact ⟨fun member => absurd (isDigit ':' member) (by decide), by decide⟩
  obtain ⟨part, parts, split⟩ := splitColons_append rest noColon
  rw [List.append_cons, isSixtyBased, split]
  cases parts with
  | nil => rfl
  | cons next parts =>
    simp only [List.append_assoc, List.singleton_append, isDigits_eq_false, Bool.false_and]

private theorem readSign_of_isDigit {c : Char} {cs : List Char} (digit : c.isDigit = true) :
    Number.readSign (c :: cs) = (false, c :: cs) := by
  unfold Number.readSign
  split
  · rename_i sign
    cases sign
    exact absurd digit (by decide)
  · rename_i sign
    cases sign
    exact absurd digit (by decide)
  · rfl

private theorem isInteger_eq_false {c d : Char}
    (isDigit : ∀ e ∈ c :: d :: digits, e.isDigit = true) :
    isInteger (c :: d :: digits ++ '-' :: rest) = false := by
  have noDigits := isDigits_eq_false rest (c :: d :: digits)
  have noSixtieths := isSixtyBased_eq_false rest isDigit
  have second : d.isDigit = true := isDigit d (by simp)
  unfold isInteger
  rw [List.cons_append, readSign_of_isDigit (isDigit c (by simp))]
  split
  · rename_i same
    cases same
    exact absurd second (by decide)
  · rename_i same
    cases same
    exact absurd second (by decide)
  · rename_i same
    cases same
    simp
  · rw [List.cons_append] at noDigits noSixtieths
    rw [noDigits, noSixtieths, Bool.or_self]

/-- What stands before a point is digits and a hyphen with more behind it. -/
private theorem isReal_eq_false {c : Char} (isDigit : ∀ e ∈ c :: digits, e.isDigit = true) :
    isReal (c :: digits ++ '-' :: rest) = false := by
  have noPoint : ∀ e ∈ c :: digits, (e != '.') = true := fun e member =>
    bne_iff_ne.mpr fun point => absurd (isDigit e member) (by rw [point]; decide)
  have whole : (c :: digits ++ '-' :: rest).takeWhile (· != '.') =
      c :: digits ++ '-' :: rest.takeWhile (· != '.') := by
    rw [List.takeWhile_append_of_pos noPoint, List.takeWhile_cons_of_pos (by decide)]
  unfold isReal
  rw [List.cons_append, readSign_of_isDigit (isDigit c (by simp)), ← List.cons_append]
  simp only [whole, isDigits_eq_false, isSixtyBased_eq_false _ isDigit, Bool.false_and,
    Bool.or_self]
  split <;> simp

private theorem ofList_ne {c : Char} (cs : List Char) (word : String) (digit : c.isDigit = true)
    (letter : word.toList.head?.any Char.isDigit = false) : String.ofList (c :: cs) ≠ word := by
  rintro rfl
  simp [digit] at letter

private theorem contains_eq_false {c : Char} (cs : List Char) (words : List String)
    (digit : c.isDigit = true)
    (letters : words.any (fun word => word.toList.head?.any Char.isDigit) = false) :
    words.contains (String.ofList (c :: cs)) = false := by
  rw [List.any_eq_false] at letters
  simpa using fun member => ofList_ne cs _ digit (by simpa using letters _ member) rfl

theorem withoutLineFeed_eq_self {cs : List Char} (noLineFeed : '\n' ∉ cs) :
    withoutLineFeed cs = cs :=
  if_neg fun last => noLineFeed (List.mem_of_getLast? last)

/-- A text with digits and a hyphen at its beginning is of the type of days and moments if it is
written like one. -/
theorem tagOfText_eq_time {c d : Char} (isDigit : ∀ e ∈ c :: d :: digits, e.isDigit = true)
    (noLineFeed : '\n' ∉ c :: d :: digits ++ '-' :: rest)
    (time : isTime (c :: d :: digits ++ '-' :: rest) = true) :
    tagOfText (String.ofList (c :: d :: digits ++ '-' :: rest)) = .time := by
  have digit : c.isDigit = true := isDigit c (by simp)
  have noTruth := contains_eq_false (d :: digits ++ '-' :: rest) truthWords digit
    (by decide)
  have noNull := contains_eq_false (d :: digits ++ '-' :: rest) nullWords digit
    (by decide)
  have noMerge := ofList_ne (d :: digits ++ '-' :: rest) "<<" digit (by decide)
  simp only [tagOfText, String.toList_ofList, withoutLineFeed_eq_self noLineFeed,
    isReal_eq_false rest isDigit, isInteger_eq_false rest isDigit, time]
  simp only [List.cons_append] at noTruth noNull noMerge ⊢
  simp only [noTruth, noNull, noMerge]
  simp

end Dated

/-! ## Scalars that stand for days and moments -/

open Calendar

private theorem lineFeed_notMem_padded (width n : Nat) : '\n' ∉ padded width n := fun member =>
  absurd (Number.isLatin_of_mem_padded member) (by decide)

private theorem lineFeed_notMem_dayText (date : Date) : '\n' ∉ dayText date := by
  simp [dayText, lineFeed_notMem_padded]

private theorem lineFeed_notMem_momentText (moment : Moment) : '\n' ∉ momentText moment := by
  have offset : '\n' ∉ offsetText moment.offset? := by
    cases moment.offset? with
    | none => exact List.not_mem_nil
    | some offset =>
      have sign : '\n' ≠ if offset < 0 then '-' else '+' := by split <;> decide
      simp [offsetText, signedText, lineFeed_notMem_padded, sign]
  simp [momentText, timeText, lineFeed_notMem_dayText, lineFeed_notMem_padded, offset]

private theorem exists_dayText_eq (date : Date) : ∃ c d digits rest,
    (∀ e ∈ c :: d :: digits, e.isDigit = true) ∧
      dayText date = c :: d :: digits ++ '-' :: rest := by
  obtain ⟨year, -⟩ := Date.isDay_iff.mp date.valid
  have length : (padded 4 date.year).length = 4 := Number.length_padded (by omega) (by decide)
  have isDigit : ∀ e ∈ padded 4 date.year, e.isDigit = true := fun _ => Number.isLatin_of_mem_padded
  match written : padded 4 date.year, length, isDigit with
  | c :: d :: digits, _, isDigit => exact ⟨c, d, digits, _, isDigit, by rw [dayText, written]⟩

/-- The text of a day is taken for nothing else. -/
theorem tagOfText_dayText (date : Date) : tagOfText (String.ofList (dayText date)) = .time := by
  obtain ⟨c, d, digits, rest, isDigit, shape⟩ := exists_dayText_eq date
  have time : isTime (dayText date) = true := by simp [isTime, read?_dayText, partsOfDay]
  have noLineFeed := lineFeed_notMem_dayText date
  rw [shape] at time noLineFeed ⊢
  exact tagOfText_eq_time _ isDigit noLineFeed time

theorem tagOfText_momentText {moment : Moment} (minutes : HasWholeMinutes moment) :
    tagOfText (String.ofList (momentText moment)) = .time := by
  obtain ⟨c, d, digits, rest, isDigit, shape⟩ := exists_dayText_eq moment.date
  have time : isTime (momentText moment) = true := by
    simp [isTime, read?_momentText minutes, partsOfDay]
  have noLineFeed := lineFeed_notMem_momentText moment
  have whole : momentText moment = c :: d :: digits ++ '-' :: (rest ++ 'T' :: timeText moment) := by
    rw [momentText, shape, List.append_assoc]
    rfl
  rw [whole] at time noLineFeed ⊢
  exact tagOfText_eq_time _ isDigit noLineFeed time

/-- Each day can be written without quotes and without a tag. -/
theorem datum_dayText (date : Date) :
    Node.datumOfText (tagOfText (String.ofList (dayText date))) (String.ofList (dayText date)) =
      .ok (.foreign (.date date)) := by
  rw [tagOfText_dayText]
  simp [Node.datumOfText, Node.timeOf, withoutLineFeed_eq_self (lineFeed_notMem_dayText date),
    read?_dayText, date?_partsOfDay, time?_partsOfDay]

/-- So can each moment whose distance from the standard time is whole minutes. -/
theorem datum_momentText {moment : Moment} (minutes : HasWholeMinutes moment) :
    Node.datumOfText (tagOfText (String.ofList (momentText moment)))
        (String.ofList (momentText moment)) =
      .ok (.foreign (.moment moment)) := by
  rw [tagOfText_momentText minutes]
  simp [Node.datumOfText, Node.timeOf, withoutLineFeed_eq_self (lineFeed_notMem_momentText moment),
    read?_momentText minutes, time?_partsOfDay, moment?_partsOfTime]

end Yaml

end Rulebook
