import Rulebook.Proofs.Number.LiteralValue
import Rulebook.Settings.Basic

/-!
# Counts written as texts

A natural number is read from its digits, also with a plus or zeros in front of them, a point and
zeros behind them, and white space around all. Only the number of its digits is bounded, and by the
same bound so is all that is read from texts.
-/

namespace Rulebook

open Number (digits)

namespace Number

variable {n : Nat}

/-- No number but zero is written with a zero at its beginning. -/
theorem head_digits_ne_zero {c : Char} {cs : List Char} (positive : 0 < n)
    (written : digits n = c :: cs) : c ≠ '0' := by
  induction n using digits.induct generalizing cs with
  | case1 n small =>
    rw [digits, if_pos small] at written
    cases written
    have checked : ∀ d : Fin 10, d.val ≠ 0 → Text.latinDigit d.val ≠ '0' := by decide
    exact checked ⟨n, small⟩ (Nat.ne_of_gt positive)
  | case2 n notSmall inductionHypothesis =>
    obtain ⟨first, more, earlier⟩ := List.exists_cons_of_ne_nil (digits_ne_nil (n / 10))
    rw [digits, if_neg notSmall, earlier] at written
    cases written
    exact inductionHypothesis (by omega) earlier

theorem digits_zero : digits 0 = ['0'] := by
  rw [digits, if_pos (by decide)]
  rfl

/-- White space around a text that neither begins nor ends with any is taken away. -/
theorem stripSpace_append {before cs after : List Char}
    (spaceBefore : ∀ c ∈ before, Text.isSpace c = true)
    (spaceAfter : ∀ c ∈ after, Text.isSpace c = true) (nonempty : cs ≠ [])
    (first : ∀ c ∈ cs.head?, Text.isSpace c = false)
    (last : ∀ c ∈ cs.getLast?, Text.isSpace c = false) :
    stripSpace (before ++ (cs ++ after)) = cs := by
  have behind : ∀ c ∈ (cs ++ after).head?, Text.isSpace c = false := by
    obtain ⟨c, more, rfl⟩ := List.exists_cons_of_ne_nil nonempty
    exact first
  have reversedAfter : ∀ c ∈ after.reverse, Text.isSpace c = true := fun c member =>
    spaceAfter c (List.mem_reverse.mp member)
  have reversedLast : ∀ c ∈ cs.reverse.head?, Text.isSpace c = false := by
    rwa [List.head?_reverse]
  rw [stripSpace, dropWhile_append_of_head spaceBefore behind, List.reverse_append,
    dropWhile_append_of_head reversedAfter reversedLast, List.reverse_reverse]

end Number

namespace Settings

variable {n zeros : Nat} {cs fraction : List Char}

/-! ## The parts of a written count -/

/-- A point with zeros behind it, or nothing. -/
def IsZeroFraction (fraction : List Char) : Prop :=
  fraction = [] ∨ ∃ places, fraction = '.' :: List.replicate places '0'

/-- A natural number as a text: perhaps a plus, zeros, its digits and a fraction. -/
def countText (plus : Bool) (zeros n : Nat) (fraction : List Char) : List Char :=
  (if plus then ['+'] else []) ++ (List.replicate zeros '0' ++ (digits n ++ fraction))

/-- Zeros in front of a number are left out, all but the last if there are no other digits. -/
theorem withoutZeros?_append (zeros : Nat) (cs : List Char) :
    withoutZeros? '0' (List.replicate zeros '0' ++ cs) = withoutZeros? '0' cs := by
  induction zeros with
  | zero => rfl
  | succ zeros inductionHypothesis =>
    rw [List.replicate_succ, List.cons_append, withoutZeros?, if_pos (.inl rfl),
      inductionHypothesis]

private theorem withoutZeros?_fraction (isFraction : IsZeroFraction fraction) :
    withoutZeros? '0' fraction = some ('0' :: fraction) := by
  rcases isFraction with rfl | ⟨places, rfl⟩
  · rfl
  · rw [withoutZeros?, if_neg (by decide), if_pos rfl]

/-- Leading zeros go, up to the first digit of the number. -/
theorem significant?_countText (isFraction : IsZeroFraction fraction) :
    significant? (List.replicate zeros '0' ++ (digits n ++ fraction)) =
      some (digits n ++ fraction) := by
  rcases Nat.eq_zero_or_pos n with rfl | positive
  · have zero : List.replicate zeros '0' ++ (digits 0 ++ fraction) =
        '0' :: (List.replicate zeros '0' ++ fraction) := by
      rw [Number.digits_zero, List.singleton_append, List.append_cons, ← List.replicate_succ',
        List.replicate_succ, List.cons_append]
    rw [zero, significant?, withoutZeros?_append, withoutZeros?_fraction isFraction,
      Number.digits_zero]
    rfl
  · obtain ⟨c, cs, written⟩ := List.exists_cons_of_ne_nil (Number.digits_ne_nil n)
    have nonzero := Number.head_digits_ne_zero positive written
    have digit : c.isDigit = true := Number.isLatin_of_mem_digits (n := n) (by simp [written])
    have noSeparator : c ≠ '_' ∧ c ≠ '.' := by
      constructor <;> rintro rfl <;> exact absurd digit (by decide)
    cases zeros with
    | zero => simp [written, significant?, digit]
    | succ zeros =>
      rw [List.replicate_succ, List.cons_append, significant?, withoutZeros?_append, written]
      simp [withoutZeros?, nonzero, noSeparator, digit]

/-- A fraction of zeros goes. -/
theorem withoutZeroFraction_digits (isFraction : IsZeroFraction fraction) :
    withoutZeroFraction (digits n ++ fraction) = digits n := by
  have noPoint : ∀ c ∈ digits n, (c != '.') = true := fun c member =>
    bne_iff_ne.mpr fun point => absurd (Number.isLatin_of_mem_digits member) (by rw [point]; decide)
  have stop : ∀ c ∈ fraction.head?, (c != '.') = false := by
    rcases isFraction with rfl | ⟨places, rfl⟩ <;> simp
  have zeros : (fraction.drop 1).all (· == '0') = true := by
    rcases isFraction with rfl | ⟨places, rfl⟩ <;> simp
  rw [withoutZeroFraction, dropWhile_append_of_head noPoint stop,
    takeWhile_append_of_head noPoint stop, if_pos zeros]

theorem joined?_digits (n : Nat) : joined? (digits n) = some (digits n) := by
  have noUnderscore : '_' ∉ digits n := fun member =>
    absurd (Number.isLatin_of_mem_digits member) (by decide)
  have first : (digits n).head? ≠ some '_' := fun head =>
    noUnderscore (List.mem_of_head? head)
  have last : (digits n).getLast? ≠ some '_' := fun last =>
    noUnderscore (List.mem_of_getLast? last)
  have pair : ('_', '_') ∉ (digits n).zip ((digits n).drop 1) := fun member =>
    noUnderscore (List.of_mem_zip member).1
  have kept : (digits n).filter (· != '_') = digits n :=
    List.filter_eq_self.mpr fun c member =>
      bne_iff_ne.mpr fun underscore => noUnderscore (underscore ▸ member)
  simp only [joined?, first, last, kept]
  simpa using pair

private theorem readSign_digits (n : Nat) : Number.readSign (digits n) = (false, digits n) := by
  have noSign : '-' ∉ digits n ∧ '+' ∉ digits n := by
    constructor <;> exact fun member =>
      absurd (Number.isLatin_of_mem_digits member) (by decide)
  unfold Number.readSign
  split
  · rename_i written
    exact absurd (written ▸ .head _) noSign.1
  · rename_i written
    exact absurd (written ▸ .head _) noSign.2
  · rfl

private theorem single_zero (n : Nat) (head : (digits n).head? = some '0') :
    (digits n).length = 1 := by
  rcases Nat.eq_zero_or_pos n with rfl | positive
  · rw [Number.digits_zero]
    rfl
  · obtain ⟨c, cs, written⟩ := List.exists_cons_of_ne_nil (Number.digits_ne_nil n)
    rw [written] at head
    exact absurd (Option.some.inj head) (Number.head_digits_ne_zero positive written)

/-- Digits that are left of a text are read as their number, unless there are too many of them. -/
private theorem readCount_of_digits {text : String} {signed : List Char}
    (withoutPlus : withoutPlus? (Number.stripSpace text.toList) = some signed)
    (significant : significant? signed = some (digits n ++ fraction))
    (isFraction : IsZeroFraction fraction) :
    readCount text =
      if Number.digitBound < (digits n).length then .error .countTooLong else .ok n := by
  have isDigit : (digits n).all Char.isDigit = true :=
    List.all_eq_true.mpr fun _ => Number.isLatin_of_mem_digits
  have value := Number.digitsValue_digits n
  rw [readCount]
  simp only [withoutPlus, significant, Option.bind_eq_bind, Option.bind_some,
    withoutZeroFraction_digits isFraction, joined?_digits, readSign_digits]
  simp only [isDigit, value]
  by_cases head : (digits n).head? = some '0'
  · simp [head, single_zero n head, Number.digits_ne_nil, Number.withSign]
  · simp [head, Number.digits_ne_nil, Number.withSign]

/-! ## Reading counts -/

private theorem exists_cons_zeros_digits (zeros n : Nat) (fraction : List Char) :
    ∃ c cs, c.isDigit = true ∧ List.replicate zeros '0' ++ (digits n ++ fraction) = c :: cs := by
  cases zeros with
  | zero =>
    obtain ⟨c, cs, written⟩ := List.exists_cons_of_ne_nil (Number.digits_ne_nil n)
    exact ⟨c, cs ++ fraction, Number.isLatin_of_mem_digits (n := n) (by simp [written]),
      by simp [written]⟩
  | succ zeros => exact ⟨'0', _, by decide, rfl⟩

private theorem withoutPlus?_countText (plus : Bool) (zeros n : Nat) (fraction : List Char) :
    withoutPlus? (countText plus zeros n fraction) =
      some (List.replicate zeros '0' ++ (digits n ++ fraction)) := by
  obtain ⟨c, cs, digit, begins⟩ := exists_cons_zeros_digits zeros n fraction
  have notSign : c ≠ '+' ∧ c ≠ '-' := by
    constructor <;> rintro rfl <;> exact absurd digit (by decide)
  rw [countText, begins]
  cases plus <;> simp [withoutPlus?, notSign]

private theorem isSpace_eq_false_of_mem (plus : Bool) (zeros n : Nat)
    (isFraction : IsZeroFraction fraction) :
    ∀ c ∈ countText plus zeros n fraction, Text.isSpace c = false := by
  have blank : ∀ c ∈ ['+', '0', '.'], Text.isSpace c = false := by
    simp only [List.mem_cons, List.not_mem_nil, or_false, forall_eq_or_imp, forall_eq]
    decide
  have digit : ∀ c ∈ digits n, Text.isSpace c = false := fun c member => by
    rw [Text.isSpace, Text.isBlank_eq_false_of_isDigit (Number.isDigit_of_mem_digits member),
      Bool.false_and]
  intro c member
  simp only [countText, List.mem_append] at member
  rcases member with signed | zero | written | behind
  · split at signed
    · exact blank c (by simp [List.mem_singleton.mp signed])
    · cases signed
  · exact blank c (by simp [List.eq_of_mem_replicate zero])
  · exact digit c written
  · rcases isFraction with rfl | ⟨places, rfl⟩
    · cases behind
    · rcases List.mem_cons.mp behind with point | zero
      · exact blank c (by simp [point])
      · exact blank c (by simp [List.eq_of_mem_replicate zero])

/-- A natural number is read from each of its texts, unless it has too many digits. -/
theorem readCount_countText {before after : List Char} (plus : Bool) (zeros : Nat)
    (spaceBefore : ∀ c ∈ before, Text.isSpace c = true)
    (spaceAfter : ∀ c ∈ after, Text.isSpace c = true) (isFraction : IsZeroFraction fraction) :
    readCount (String.ofList (before ++ (countText plus zeros n fraction ++ after))) =
      if Number.digitBound < (digits n).length then .error .countTooLong else .ok n := by
  have noSpace := isSpace_eq_false_of_mem plus zeros n isFraction
  have nonempty : countText plus zeros n fraction ≠ [] := by
    simp [countText, Number.digits_ne_nil]
  have stripped := Number.stripSpace_append spaceBefore spaceAfter nonempty
    (fun c head => noSpace c (List.mem_of_head? head))
    (fun c last => noSpace c (List.mem_of_getLast? last))
  have withoutPlus := withoutPlus?_countText plus zeros n fraction
  rw [← stripped, ← String.toList_ofList (l := before ++ _)] at withoutPlus
  exact readCount_of_digits withoutPlus (significant?_countText isFraction) isFraction

private theorem natAbs_withSign (negative : Bool) (magnitude : Nat) :
    (Number.withSign negative magnitude).natAbs = magnitude := by
  cases negative <;> simp [Number.withSign]

/-- Nothing is read from a text that has more digits than the bound allows. -/
theorem natAbs_lt_of_readCount {text : String} {count : Int} (read : readCount text = .ok count) :
    count.natAbs < 10 ^ Number.digitBound := by
  dsimp only [readCount] at read
  split at read
  · cases read
  · rename_i cs _
    split at read
    · cases read
    · split at read
      · cases read
      · rename_i notLong
        cases read
        rw [natAbs_withSign]
        exact (digitsValue_lt _).trans_le
          (Nat.pow_le_pow_right (by decide) (Nat.not_lt.mp notLong))

end Settings

end Rulebook
