import Rulebook.Token.Scan

/-!
# Disjoint character classes

The character classes that begin the pieces of a text have no characters in common, so the first
character of a piece tells what the piece is.
-/

namespace Rulebook.Text

/-- Whether two classes of code points have none in common. -/
def areApart (ranges others : List CodeRange) : Bool :=
  ranges.all fun range => others.all fun other => Nat.blt range.2 other.1 || Nat.blt other.2 range.1

/-- A character of one class is in none that is apart from it. -/
theorem within_eq_false_of_areApart {ranges others : List CodeRange} {c : Char}
    (apart : areApart ranges others = true) (member : within ranges c = true) :
    within others c = false := by
  obtain ⟨range, rangeMember, low, high⟩ := within_iff.1 member
  rw [Bool.eq_false_iff]
  intro otherMember
  obtain ⟨other, otherRange, otherLow, otherHigh⟩ := within_iff.1 otherMember
  have separate :=
    List.all_eq_true.1 (List.all_eq_true.1 apart range rangeMember) other otherRange
  simp only [Bool.or_eq_true, Nat.blt_eq] at separate
  omega

/-- The ten digits of each script as ranges of code points. -/
def digitRanges : List CodeRange :=
  zeroDigits.map fun start => (start, start + 9)

theorem isDigit_eq_within (c : Char) : isDigit c = within digitRanges c := by
  simp only [isDigit, digitValue?, Option.isSome_map, within, digitRanges, List.any_map]
  rw [Bool.eq_iff_iff, List.find?_isSome, List.any_eq_true]
  simp only [Function.comp_apply, Bool.and_eq_true, decide_eq_true_eq, Nat.lt_succ_iff]

private theorem isLetter_eq_false_of_isDigit {c : Char} (digit : isDigit c = true) :
    isLetter c = false := by
  have apart : areApart digitRanges letterRanges = true := by decide +kernel
  rw [isDigit_eq_within] at digit
  exact within_eq_false_of_areApart apart digit

theorem isBlank_eq_false_of_isDigit {c : Char} (digit : isDigit c = true) :
    isBlank c = false := by
  have apart : areApart digitRanges blankRanges = true := by decide +kernel
  rw [isDigit_eq_within] at digit
  exact within_eq_false_of_areApart apart digit

theorem isBlank_eq_false_of_isLetter {c : Char} (letter : isLetter c = true) :
    isBlank c = false := by
  have apart : areApart letterRanges blankRanges = true := by decide +kernel
  exact within_eq_false_of_areApart apart letter

def signs : List Char :=
  ['&', '|', '=', '!', '<', '>', '+', '-', '*', '/', '.', '[', ']', '(', ')', '{', '}', ';', '"']

/-- No sign is a blank, or a part of a name or a number. -/
theorem sign_in_no_class {c : Char} (sign : c ∈ signs) :
    isBlank c = false ∧ isDigit c = false ∧ startsName c = false ∧ continuesName c = false := by
  have checked : signs.all (fun c =>
      !isBlank c && !isDigit c && !startsName c && !continuesName c) = true := by
    decide +kernel
  have outside := List.all_eq_true.1 checked c sign
  simp only [Bool.and_eq_true, Bool.not_eq_true'] at outside
  exact ⟨outside.1.1.1, outside.1.1.2, outside.1.2, outside.2⟩

/-- Digits are no signs. -/
theorem not_mem_signs_of_isDigit {c : Char} (digit : isDigit c = true) : c ∉ signs := by
  intro sign
  rw [(sign_in_no_class sign).2.1] at digit
  exact Bool.false_ne_true digit

theorem not_mem_signs_of_startsName {c : Char} (start : startsName c = true) : c ∉ signs := by
  intro sign
  rw [(sign_in_no_class sign).2.2.1] at start
  exact Bool.false_ne_true start

theorem isBlank_eq_false_of_startsName {c : Char} (start : startsName c = true) :
    isBlank c = false := by
  simp only [startsName, Bool.or_eq_true, beq_iff_eq] at start
  rcases start with letter | rfl
  · exact isBlank_eq_false_of_isLetter letter
  · decide

theorem startsName_eq_false_of_isDigit {c : Char} (digit : isDigit c = true) :
    startsName c = false := by
  have notLine : c ≠ '_' := by
    rintro rfl
    exact absurd digit (by decide)
  simp only [startsName, isLetter_eq_false_of_isDigit digit, beq_eq_false_iff_ne.mpr notLine,
    Bool.or_self]

theorem isDigit_eq_false_of_startsName {c : Char} (start : startsName c = true) :
    isDigit c = false := by
  rw [Bool.eq_false_iff]
  intro digit
  rw [startsName_eq_false_of_isDigit digit] at start
  exact Bool.false_ne_true start

/-- Blanks are no signs. -/
theorem not_mem_signs_of_isBlank {c : Char} (blank : isBlank c = true) : c ∉ signs := by
  intro sign
  rw [(sign_in_no_class sign).1] at blank
  exact Bool.false_ne_true blank

theorem isDigit_eq_false_of_isBlank {c : Char} (blank : isBlank c = true) :
    isDigit c = false := by
  rw [Bool.eq_false_iff]
  intro digit
  rw [isBlank_eq_false_of_isDigit digit] at blank
  exact Bool.false_ne_true blank

theorem continuesName_eq_false_of_isBlank {c : Char} (blank : isBlank c = true) :
    continuesName c = false := by
  have noLetter : isLetter c = false := by
    rw [Bool.eq_false_iff]
    intro letter
    rw [isBlank_eq_false_of_isLetter letter] at blank
    exact Bool.false_ne_true blank
  have noNumeral : isNumeral c = false := by
    have apart : areApart blankRanges numeralRanges = true := by decide +kernel
    exact within_eq_false_of_areApart apart blank
  have notLine : c ≠ '_' := by
    rintro rfl
    exact absurd blank (by decide)
  simp only [continuesName, noLetter, noNumeral, beq_eq_false_iff_ne.mpr notLine, Bool.or_self]

end Rulebook.Text
