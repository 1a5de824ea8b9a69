import Mathlib.Data.List.TakeWhile
import Mathlib.Data.Nat.Cast.Field
import Rulebook.Proofs.Number.Decimals

/-!
# Values of literals

Values of written numbers. A positional decimal has the value of the decimal, and a magnitude that is
written with the places of a literal has the value that these places hold.
-/

namespace Rulebook

open Text (isDigit digitsValue)

/-! ## Values of digits -/

/-- Digits in front count by the number of those behind. -/
theorem digitsValue_append (cs ds : List Char) :
    digitsValue (cs ++ ds) = digitsValue cs * 10 ^ ds.length + digitsValue ds := by
  induction ds using List.reverseRecOn with
  | nil => simp [digitsValue]
  | append_singleton ds d inductionHypothesis =>
      have last (cs : List Char) :
          digitsValue (cs ++ [d]) = 10 * digitsValue cs + (Text.digitValue? d).getD 0 := by
        rw [digitsValue, digitsValue, List.foldl_append]
        rfl
      rw [← List.append_assoc, last, last, inductionHypothesis, List.length_append,
        List.length_singleton, Nat.pow_succ]
      ring

theorem digitValue?_lt_ten {c : Char} {value : Nat} (digit : Text.digitValue? c = some value) :
    value < 10 := by
  obtain ⟨start, found, rfl⟩ := Option.map_eq_some_iff.mp digit
  have within := List.find?_some found
  simp only [Bool.and_eq_true, decide_eq_true_eq] at within
  omega

/-- Digits are worth less than the next power of ten. -/
theorem digitsValue_lt (cs : List Char) : digitsValue cs < 10 ^ cs.length := by
  induction cs using List.reverseRecOn with
  | nil => exact Nat.one_pos
  | append_singleton cs c inductionHypothesis =>
      have last : digitsValue [c] < 10 := by
        cases digit : Text.digitValue? c with
        | none => simp [digitsValue, digit]
        | some value => simpa [digitsValue, digit] using digitValue?_lt_ten digit
      have step : 10 ^ (cs ++ [c]).length = 10 ^ cs.length * 10 := by
        rw [List.length_append, List.length_singleton, Nat.pow_succ]
      rw [digitsValue_append, List.length_singleton, Nat.pow_one, step]
      omega

theorem digitsValue_zeros (n : Nat) : digitsValue (List.replicate n '0') = 0 := by
  have zero : Text.digitValue? '0' = some 0 := by decide
  induction n with
  | zero => rfl
  | succ n inductionHypothesis =>
      rw [List.replicate_succ', digitsValue_append, inductionHypothesis, Nat.zero_mul, Nat.zero_add,
        digitsValue]
      simp [zero]

theorem digitsValue_zeros_append (n : Nat) (ds : List Char) :
    digitsValue (List.replicate n '0' ++ ds) = digitsValue ds := by
  rw [digitsValue_append, digitsValue_zeros, Nat.zero_mul, Nat.zero_add]

theorem digitsValue_append_zeros (cs : List Char) (n : Nat) :
    digitsValue (cs ++ List.replicate n '0') = digitsValue cs * 10 ^ n := by
  rw [digitsValue_append, digitsValue_zeros, List.length_replicate, Nat.add_zero]

/-! ## Numerals and their characters -/

namespace Numeral

variable {numeral : Numeral} {whole fraction : List Char}

private theorem point_not_digit : isDigit '.' = false :=
  (Text.sign_in_no_class (by decide)).2.1

theorem point_notMem {cs : List Char} (digits : ∀ c ∈ cs, isDigit c = true) : '.' ∉ cs := by
  intro member
  have isDigit := digits '.' member
  rw [point_not_digit] at isDigit
  cases isDigit

/-- A written number with a point is divided by it. -/
theorem eq_of_chars_point (written : numeral.WellFormed)
    (chars : numeral.chars = whole ++ '.' :: fraction) : numeral = ⟨whole, some fraction⟩ := by
  obtain ⟨ownWhole, ownFraction⟩ := numeral
  have notInWhole := point_notMem written.whole_digits
  cases ownFraction with
  | none =>
      have isWhole : ownWhole = whole ++ '.' :: fraction := chars
      exact absurd (isWhole ▸ List.mem_append_right _ List.mem_cons_self) notInWhole
  | some ownFraction =>
      have notInFraction := point_notMem (written.fraction_digits ownFraction rfl)
      have split : ownWhole ++ '.' :: ownFraction = whole ++ '.' :: fraction := chars
      rcases List.append_eq_append_iff.1 split with ⟨more, rfl, same⟩ | ⟨more, rfl, same⟩
      · cases more with
        | nil =>
            cases same
            rw [List.append_nil]
        | cons d others =>
            injection same with _ isFraction
            exact absurd (isFraction ▸ List.mem_append_right _ List.mem_cons_self) notInFraction
      · cases more with
        | nil =>
            cases same
            rw [List.append_nil]
        | cons d others =>
            injection same with isPoint _
            exact absurd (isPoint ▸ List.mem_append_right _ List.mem_cons_self) notInWhole

/-- A written number without a point is whole. -/
theorem eq_of_chars_whole (written : numeral.WellFormed) (chars : numeral.chars = whole)
    (digits : ∀ c ∈ whole, isDigit c = true) : numeral = ⟨whole, none⟩ := by
  obtain ⟨ownWhole, ownFraction⟩ := numeral
  cases ownFraction with
  | none => exact congrArg (Numeral.mk · none) chars
  | some fraction =>
      have isWhole : ownWhole ++ '.' :: fraction = whole := chars
      exact absurd (isWhole ▸ List.mem_append_right _ List.mem_cons_self) (point_notMem digits)

end Numeral

theorem value_decimal_point (whole fraction : List Char) :
    (Numeral.mk whole (some fraction)).decimal.value =
      digitsValue (whole ++ fraction) * 10 ^ (-(fraction.length : Int)) :=
  rfl

theorem value_decimal_whole (whole : List Char) :
    (Numeral.mk whole none).decimal.value = digitsValue whole := by
  have value : (Numeral.mk whole none).decimal.value =
      digitsValue (whole ++ []) * 10 ^ (0 : Int) := rfl
  rw [value, List.append_nil, zpow_zero, mul_one]

namespace Number

variable {numeral : Numeral}

/-! ## Values of written decimals -/

theorem value_positional {decimal : Decimal} (written : numeral.WellFormed)
    (chars : numeral.chars = positional decimal) :
    numeral.decimal.value = decimal.value := by
  simp only [positional] at chars
  generalize isPlace : decimal.exponent + ((digits decimal.significand).length : Int) = place at chars
  have isSignificand := digitsValue_digits decimal.significand
  generalize digits decimal.significand = ds at chars isPlace isSignificand
  have isValue : decimal.value = digitsValue ds * 10 ^ decimal.exponent := by
    rw [Decimal.value, isSignificand]
  rw [isValue]
  split at chars
  · next before =>
      have exponent :
          -((List.replicate (-place).toNat '0' ++ ds).length : Int) = decimal.exponent := by
        rw [List.length_append, List.length_replicate]
        omega
      rw [@Numeral.eq_of_chars_point _ ['0'] _ written chars, value_decimal_point, exponent,
        ← List.append_assoc, ← List.replicate_one, ← List.replicate_add,
        digitsValue_zeros_append]
  · next after =>
      split at chars
      · next longer =>
          have exponent : ((place.toNat - ds.length : Nat) : Int) = decimal.exponent := by
            omega
          have lastZero (cs : List Char) : digitsValue (cs ++ ['0']) = digitsValue cs * 10 :=
            digitsValue_append_zeros cs 1
          rw [@Numeral.eq_of_chars_point _ (ds ++ List.replicate (place.toNat - ds.length) '0') ['0']
            written chars, value_decimal_point, lastZero,
            digitsValue_append_zeros, ← exponent, zpow_natCast, List.length_singleton, Nat.cast_one,
            zpow_neg_one]
          push_cast
          field_simp
      · next shorter =>
          have exponent : -((ds.drop place.toNat).length : Int) = decimal.exponent := by
            rw [List.length_drop]
            omega
          rw [Numeral.eq_of_chars_point written chars, value_decimal_point, List.take_append_drop,
            exponent]

/-- A magnitude in units of the last place of a literal. -/
def literalUnitsOf (mantissa : Nat) (exponent : Int) : Nat :=
  roundedQuotient ((quotient mantissa exponent).1 * literalUnits) (quotient mantissa exponent).2

/-- The digits behind the point of a number of units, without the zeros at their end. -/
def keptDigits (units : Nat) : List Char :=
  ((padded literalPlaces (units % literalUnits)).reverse.dropWhile (· == '0')).reverse

theorem fixedPlaces_eq (mantissa : Nat) (exponent : Int) :
    fixedPlaces mantissa exponent =
      digits (literalUnitsOf mantissa exponent / literalUnits) ++
        if (keptDigits (literalUnitsOf mantissa exponent)).isEmpty then []
        else '.' :: keptDigits (literalUnitsOf mantissa exponent) :=
  rfl

theorem literalUnits_pos : 0 < literalUnits :=
  Nat.pow_pos (by decide)

/-- A number that is not too great has as many digits as it is given. -/
theorem length_padded {width n : Nat} (fits : n < 10 ^ width) (positive : 0 < width) :
    (padded width n).length = width := by
  have shorter : (digits n).length ≤ width := (length_digits_le_iff positive).2 fits
  rw [padded, List.length_append, List.length_replicate]
  omega

theorem digitsValue_padded (width n : Nat) : digitsValue (padded width n) = n := by
  rw [padded, digitsValue_zeros_append, digitsValue_digits]

private theorem exists_zeros (units : Nat) :
    ∃ n, padded literalPlaces (units % literalUnits) = keptDigits units ++ List.replicate n '0' := by
  let reversed := (padded literalPlaces (units % literalUnits)).reverse
  refine ⟨(reversed.takeWhile (· == '0')).length, ?_⟩
  have zeros : (reversed.takeWhile (· == '0')).reverse =
      List.replicate (reversed.takeWhile (· == '0')).length '0' := by
    rw [List.eq_replicate_iff]
    refine ⟨List.length_reverse, fun c member => ?_⟩
    have isZero := List.mem_takeWhile_imp (List.mem_reverse.1 member)
    exact eq_of_beq isZero
  rw [← zeros, keptDigits, ← List.reverse_append, List.takeWhile_append_dropWhile,
    List.reverse_reverse]

/-- The digits of a number of units, followed by zeros, write the units. -/
theorem exists_places (units : Nat) :
    ∃ n, (keptDigits units).length + n = literalPlaces ∧
      digitsValue (digits (units / literalUnits) ++ keptDigits units) * 10 ^ n = units := by
  have length := @length_padded literalPlaces (units % literalUnits)
    (Nat.mod_lt _ literalUnits_pos) (by decide)
  have value : digitsValue (digits (units / literalUnits) ++
      padded literalPlaces (units % literalUnits)) = units := by
    rw [digitsValue_append, digitsValue_padded, digitsValue_digits, length]
    exact Nat.div_add_mod' units literalUnits
  obtain ⟨n, split⟩ := exists_zeros units
  rw [split] at length value
  rw [List.length_append, List.length_replicate] at length
  rw [← List.append_assoc, digitsValue_append_zeros] at value
  exact ⟨n, length, value⟩

/-- The literal with twenty places has the value that they hold. -/
theorem value_fixedPlaces {mantissa : Nat} {exponent : Int} (written : numeral.WellFormed)
    (chars : numeral.chars = fixedPlaces mantissa exponent) :
    numeral.decimal.value = (literalUnitsOf mantissa exponent : ℚ) / literalUnits := by
  rw [fixedPlaces_eq] at chars
  generalize literalUnitsOf mantissa exponent = units at chars ⊢
  obtain ⟨n, places, isUnits⟩ := exists_places units
  generalize keptDigits units = kept at chars places isUnits
  have isValue : numeral.decimal.value =
      digitsValue (digits (units / literalUnits) ++ kept) * 10 ^ (-(kept.length : Int)) := by
    cases kept with
    | nil =>
        rw [List.isEmpty_nil, if_pos rfl, List.append_nil] at chars
        rw [Numeral.eq_of_chars_whole written chars fun _ => isDigit_of_mem_digits,
          value_decimal_whole, List.append_nil, List.length_nil, Nat.cast_zero, neg_zero, zpow_zero,
          mul_one]
    | cons c others => rw [Numeral.eq_of_chars_point written chars, value_decimal_point]
  have unitsPower : ((literalUnits : Nat) : ℚ) = 10 ^ kept.length * 10 ^ n := by
    rw [← pow_add, places, literalUnits, Nat.pow_eq, Nat.cast_pow, Nat.cast_ofNat]
  generalize digitsValue (digits (units / literalUnits) ++ kept) = held at isValue isUnits
  rw [isValue, unitsPower, zpow_neg, zpow_natCast, ← isUnits, Nat.cast_mul, Nat.cast_pow,
    Nat.cast_ofNat]
  field_simp

/-! ## Literals of magnitudes -/

section Literal

variable {x : Float} {mantissa : Nat} {exponent : Int}

/-- The integer that a magnitude without a fraction is has its value. -/
theorem natAbs_of_whole? {whole : Int} (finite : parts x = .finite false mantissa exponent)
    (isWhole : whole? x = some whole) :
    0 ≤ whole ∧ (whole.natAbs : ℚ) = mantissa * 2 ^ exponent := by
  simp only [whole?, finite, Option.ite_none_right_eq_some, Option.some.injEq] at isWhole
  obtain ⟨divides, rfl⟩ := isWhole
  have nonzero : ((quotient mantissa exponent).2 : ℚ) ≠ 0 :=
    Nat.cast_ne_zero.2 (quotient_pos mantissa exponent).ne'
  refine ⟨Int.natCast_nonneg _, ?_⟩
  rw [← ratio_quotient]
  exact Nat.cast_div (Nat.dvd_of_mod_eq_zero divides) nonzero

theorem literalUnitsOf_eq {n : Nat}
    (isUnits : (mantissa : ℚ) * 2 ^ exponent * literalUnits = n) :
    literalUnitsOf mantissa exponent = n := by
  apply roundedQuotient_eq_of_near (quotient_pos mantissa exponent)
  rw [Nat.cast_mul, mul_div_right_comm, ratio_quotient, isUnits, sub_self, abs_zero]
  norm_num

theorem literalUnits_ne_zero : (literalUnits : ℚ) ≠ 0 :=
  Nat.cast_ne_zero.2 literalUnits_pos.ne'

end Literal

end Number

end Rulebook
