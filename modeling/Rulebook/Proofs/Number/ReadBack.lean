import Mathlib.Tactic.LinearCombination
import Rulebook.Proofs.Expr.Folding
import Rulebook.Proofs.Number.LiteralValue
import Rulebook.Proofs.Token.Layout

/-!
# Literals that are read back

Literals that are read back. The literal of a number that is not negative is a single number of the rule
language. It is read as the number nearest to what the twenty places of a literal hold, which is the
number it was written for unless that number is very small.
-/

namespace Rulebook

namespace Number

section Magnitude

variable {x : Float} {mantissa : Nat} {exponent : Int}

/-! ## Magnitudes that the places of a literal hold -/

/-- The exponent from which on the places of a literal hold every magnitude. -/
def heldExponent : Int := -66

private theorem two_zpow_neg_lt_literalUnits (held : heldExponent ≤ exponent) :
    (2 : ℚ) ^ (-exponent) < literalUnits := by
  calc (2 : ℚ) ^ (-exponent) ≤ 2 ^ (66 : Int) :=
        zpow_le_zpow_right₀ one_le_two (Int.neg_le_of_neg_le held)
    _ < literalUnits := by norm_num [literalUnits, literalPlaces]

/-- A power of two that is great enough is a whole number of units. -/
theorem literalUnitsOf_leastMantissa (held : heldExponent ≤ exponent) :
    (literalUnitsOf leastMantissa exponent : ℚ) = leastMantissa * 2 ^ exponent * literalUnits := by
  have whole : ((2 ^ (72 + exponent).toNat * 5 ^ 20 : Nat) : ℚ) =
      leastMantissa * 2 ^ exponent * literalUnits := by
    have power : (2 : ℚ) ^ (72 + exponent).toNat = 2 ^ (72 : Int) * 2 ^ exponent := by
      have notNegative : 0 ≤ 72 + exponent := by
        simp only [heldExponent] at held
        omega
      rw [← zpow_natCast, Int.toNat_of_nonneg notNegative, zpow_add₀ two_ne_zero]
    rw [Nat.cast_mul, Nat.cast_pow, Nat.cast_ofNat, power]
    norm_num [leastMantissa, literalUnits, literalPlaces]
    ring
  rw [literalUnitsOf_eq whole.symm, whole]

/-- The places of a literal hold a magnitude that is not too small. -/
theorem nearestBits_literalUnitsOf (isMagnitude : IsMagnitude mantissa exponent)
    (held : heldExponent ≤ exponent) :
    nearestBits (literalUnitsOf mantissa exponent) literalUnits = magnitudeBits mantissa exponent := by
  have unitsPositive : (0 : ℚ) < literalUnits := Nat.cast_pos.2 literalUnits_pos
  have cancel : (2 : ℚ) ^ exponent * 2 ^ (-exponent) = 1 := by
    rw [← zpow_add₀ two_ne_zero, Int.add_right_neg, zpow_zero]
  apply nearestBits_of_near isMagnitude literalUnits_pos
  · have close := @abs_roundedQuotient_sub_le ((quotient mantissa exponent).1 * literalUnits)
      (quotient mantissa exponent).2 (quotient_pos mantissa exponent)
    rw [Nat.cast_mul, mul_div_right_comm, ratio_quotient] at close
    -- half a unit of the last place is less than half a unit of the mantissa's last digit
    have factored : (literalUnitsOf mantissa exponent : ℚ) / literalUnits * 2 ^ (-exponent) - mantissa =
        (literalUnitsOf mantissa exponent - mantissa * 2 ^ exponent * literalUnits) *
          (2 ^ (-exponent) / literalUnits) := by
      field_simp
      linear_combination literalUnits * mantissa * cancel
    have positive : (0 : ℚ) < 2 ^ (-exponent) / literalUnits := by positivity
    have small : (2 : ℚ) ^ (-exponent) / literalUnits < 1 :=
      (div_lt_one unitsPositive).2 (two_zpow_neg_lt_literalUnits held)
    rw [factored, abs_mul, abs_of_pos positive]
    calc |(literalUnitsOf mantissa exponent : ℚ) - mantissa * 2 ^ exponent * literalUnits| *
            (2 ^ (-exponent) / literalUnits)
        ≤ 1 / 2 * (2 ^ (-exponent) / literalUnits) :=
          mul_le_mul_of_nonneg_right close positive.le
      _ < 1 / 2 := by linarith
  · rintro rfl
    rw [literalUnitsOf_leastMantissa held, mul_div_cancel_right₀ _ literalUnits_ne_zero, mul_assoc,
      cancel, mul_one]

/-- A decimal that is written positionally is not too small for the places of a literal. -/
theorem heldExponent_le_of_isPositional (isMagnitude : IsMagnitude mantissa exponent)
    (nonzero : mantissa ≠ 0)
    (written : isPositional ((Decimal.shortest mantissa exponent).exponent +
      (digits (Decimal.shortest mantissa exponent).significand).length - 1) = true) :
    heldExponent ≤ exponent := by
  have isRead := Decimal.bits_shortest mantissa exponent
  rw [nearestBits_quotient isMagnitude] at isRead
  generalize Decimal.shortest mantissa exponent = decimal at written isRead
  have leading : -4 ≤ decimal.exponent + (digits decimal.significand).length - 1 := by
    simp only [isPositional, Bool.and_eq_true, decide_eq_true_eq] at written
    exact written.1
  have significand : decimal.significand ≠ 0 := by
    intro zero
    rw [Decimal.bits, if_pos zero, magnitudeBits] at isRead
    omega
  -- one in the fourth place behind the point is more than any magnitude below this exponent
  have great : (2 : ℚ) ^ (heldExponent + 52) ≤ decimal.value := by
    calc (2 : ℚ) ^ (heldExponent + 52) ≤ 10 ^ (-4 : Int) := by norm_num [heldExponent]
      _ ≤ 10 ^ (decimal.exponent + (digits decimal.significand).length - 1) :=
          zpow_le_zpow_right₀ (by norm_num) leading
      _ ≤ decimal.value := (Decimal.value_between significand).1
  rw [← decimal.ratio_quotient] at great
  have atLeast := le_nearestBits decimal.quotient_pos (by decide) great
  rw [← decimal.bits_eq_nearestBits, isRead] at atLeast
  have below := isMagnitude.lt
  simp only [magnitudeBits, heldExponent, leastExponent, leastMantissa, infinityBits] at *
  omega

/-! ## What literals are read as -/

/-- The literal of a magnitude is read as the number nearest to what its places hold. -/
theorem exists_numeral_of_finite (finite : parts x = .finite false mantissa exponent) :
    ∃ numeral : Numeral, numeral.WellFormed ∧ numeral.chars = (literal x).toList ∧
      numeral.decimal.bits = nearestBits (literalUnitsOf mantissa exponent) literalUnits := by
  have isMagnitude := isMagnitude_of_parts finite
  simp only [literal, finite, String.toList_ofList]
  cases read : whole? x with
  | some whole =>
      obtain ⟨notNegative, isValue⟩ := natAbs_of_whole? finite read
      have isUnits : literalUnitsOf mantissa exponent = whole.natAbs * literalUnits := by
        apply literalUnitsOf_eq
        rw [← isValue, Nat.cast_mul]
      simp only
      split
      · obtain ⟨numeral, written, chars⟩ := isNumeral_digits whole.natAbs
        refine ⟨numeral, written, ?_, Decimal.bits_of_value literalUnits_pos ?_⟩
        · rw [chars, integerText, if_neg (Int.not_lt.2 notNegative)]
        · rw [Numeral.eq_of_chars_whole written chars fun _ => isDigit_of_mem_digits,
            value_decimal_whole, digitsValue_digits, isUnits, Nat.cast_mul,
            mul_div_cancel_right₀ _ literalUnits_ne_zero]
      · obtain ⟨numeral, written, chars⟩ := isNumeral_fixedPlaces mantissa exponent
        exact ⟨numeral, written, chars,
          Decimal.bits_of_value literalUnits_pos (value_fixedPlaces written chars)⟩
  | none =>
      have nonzero : mantissa ≠ 0 := by
        rintro rfl
        rw [whole?_of_zero finite] at read
        cases read
      simp only
      split
      · next isPositional =>
          obtain ⟨numeral, written, chars⟩ :=
            isNumeral_positional (Decimal.shortest mantissa exponent)
          have held := heldExponent_le_of_isPositional isMagnitude nonzero isPositional
          refine ⟨numeral, written, chars, ?_⟩
          rw [Decimal.bits_congr (value_positional written chars), Decimal.bits_shortest,
            nearestBits_quotient isMagnitude, nearestBits_literalUnitsOf isMagnitude held]
      · obtain ⟨numeral, written, chars⟩ := isNumeral_fixedPlaces mantissa exponent
        exact ⟨numeral, written, chars,
          Decimal.bits_of_value literalUnits_pos (value_fixedPlaces written chars)⟩

end Magnitude

/-! ## Texts of a single number -/

/-- Whether a text is a single number of the rule language with a certain value. -/
def ReadsAs (text : String) (x : Float) : Prop :=
  ∃ numeral finish, Scan.strict text = .ok ⟨[⟨.number numeral, .start⟩], finish⟩ ∧
    numeral.chars = text.toList ∧ numeral.toFloat = x

variable {text : String} {x y : Float}

private theorem readsAs_of_wellFormed {numeral : Numeral} (written : numeral.WellFormed)
    (chars : numeral.chars = text.toList) : ReadsAs text numeral.toFloat := by
  have ends : Lexeme.EndsBefore [] (.number numeral) :=
    ⟨fun _ first => (by cases first), fun _ isPoint => (by cases isPoint)⟩
  have scanned := @strictFrom_chars (.number numeral) [] .start written ends
  rw [List.append_nil, Scan.strictFrom] at scanned
  refine ⟨numeral, Text.Position.start.afterAll numeral.chars, ?_, chars, rfl⟩
  rw [Scan.strict, ← chars]
  exact scanned

/-- The number of such a text is the expression that the text is. -/
theorem ReadsAs.parse (reads : ReadsAs text x) : Expr.parse text = .ok (.number x) := by
  obtain ⟨numeral, finish, scanned, chars, rfl⟩ := reads
  have layout : Layout (Text.Position.start.afterAll []) text.toList _ := .of_strictFrom scanned
  have stands := layout.standsIn _ List.mem_cons_self
  exact @Expr.parse_signed_numeral text false numeral stands.written chars.symm

/-- A text is read as one number at most. -/
theorem ReadsAs.unique (reads : ReadsAs text x) (readsOther : ReadsAs text y) : x = y := by
  obtain ⟨numeral, finish, scanned, -, rfl⟩ := reads
  obtain ⟨other, otherFinish, otherScanned, -, rfl⟩ := readsOther
  cases scanned.symm.trans otherScanned
  rfl

/-- A number that is read has no sign. -/
theorem ReadsAs.parts (reads : ReadsAs text x) :
    parts x = .infinite false ∨ ∃ mantissa exponent, parts x = .finite false mantissa exponent := by
  obtain ⟨numeral, -, -, -, rfl⟩ := reads
  exact parts_ofMagnitude numeral.decimal.bits_le

private theorem literal_of_infinite (infinite : parts x = .infinite false) : literal x = "inf" := by
  have notWhole : whole? x = none := by simp only [whole?, infinite]
  simp only [literal, infinite, notWhole, text, signed]
  rfl

/-- What is read from the literal of a number that is finite and not negative: the number nearest to
what the places of the literal hold. -/
def held? (x : Float) : Option Float :=
  match parts x with
  | .finite false mantissa exponent =>
    some (nearest false (literalUnitsOf mantissa exponent) literalUnits)
  | _ => none

private theorem readsAs_literal {mantissa : Nat} {exponent : Int}
    (finite : parts x = .finite false mantissa exponent) : ∃ y ∈ held? x, ReadsAs (literal x) y := by
  obtain ⟨numeral, written, chars, bits⟩ := exists_numeral_of_finite finite
  refine ⟨numeral.toFloat, ?_, readsAs_of_wellFormed written chars⟩
  simp only [held?, finite, Option.mem_some_iff]
  rw [Numeral.toFloat, Decimal.toFloat, bits, nearest]

private theorem held?_eq_some {mantissa : Nat} {exponent : Int}
    (finite : parts x = .finite false mantissa exponent) (held : heldExponent ≤ exponent) :
    held? x = some x := by
  simp only [held?, finite, Option.some.injEq]
  rw [nearest, nearestBits_literalUnitsOf (isMagnitude_of_parts finite) held,
    ofMagnitude_of_parts finite]

private theorem not_readsAs_of_infinite (infinite : parts x = .infinite false) :
    ¬ ReadsAs (literal x) y := by
  rintro ⟨numeral, finish, scanned, -⟩
  have isName : (Scan.strict "inf").toOption.map (·.tokens) = some [⟨.name "inf", .start⟩] := by
    decide +kernel
  rw [← literal_of_infinite infinite, scanned] at isName
  cases isName

/-- When the literal of a number is read back, for every number that a text is read as and every finite
number that is not negative. The literal is read as what its places hold of the number and as nothing
else, and it is parsed as what it is read as. From a certain exponent on the places hold each number. -/
theorem literal_reads_back
    (given : (∃ text, ReadsAs text x) ∨
      ∃ mantissa exponent, parts x = .finite false mantissa exponent) :
    (∀ y, ReadsAs (literal x) y ↔ held? x = some y) ∧
      (∀ y, ReadsAs (literal x) y → Expr.parse (literal x) = .ok (.number y)) ∧
      ∀ mantissa exponent, parts x = .finite false mantissa exponent → heldExponent ≤ exponent →
        held? x = some x := by
  have ofReading : parts x = .infinite false ∨
      ∃ mantissa exponent, parts x = .finite false mantissa exponent := by
    rcases given with ⟨text, reads⟩ | finite
    · exact reads.parts
    · exact .inr finite
  refine ⟨fun y => ?_, fun y reads => reads.parse, fun _ _ => held?_eq_some⟩
  rcases ofReading with infinite | ⟨mantissa, exponent, finite⟩
  · simp only [held?, infinite, reduceCtorEq, iff_false]
    exact not_readsAs_of_infinite infinite
  · obtain ⟨held, isHeld, reads⟩ := readsAs_literal finite
    constructor
    · intro readsOther
      exact reads.unique readsOther ▸ isHeld
    · intro isHeldOther
      cases isHeld.symm.trans isHeldOther
      exact reads

/-- A small number whose literal writes out its point. -/
private def smallNumeral : Numeral :=
  ⟨['0'], some ['0', '0', '0', '0', '7']⟩

theorem literal_reads_back_small :
    ReadsAs "0.00007" smallNumeral.toFloat ∧
      parts smallNumeral.toFloat = .finite false 5165088340638674 heldExponent ∧
      ReadsAs (literal smallNumeral.toFloat) smallNumeral.toFloat ∧
      Expr.parse (literal smallNumeral.toFloat) = .ok (.number smallNumeral.toFloat) := by
  have finite : parts smallNumeral.toFloat = .finite false 5165088340638674 heldExponent := by
    decide +kernel
  have reads : ReadsAs "0.00007" smallNumeral.toFloat :=
    ⟨smallNumeral, ⟨7, 1, 8⟩, by decide +kernel, by decide, rfl⟩
  obtain ⟨readsAs_iff, parses, holds⟩ := literal_reads_back (.inl ⟨_, reads⟩)
  have readsBack := (readsAs_iff _).2 (holds _ _ finite le_rfl)
  exact ⟨reads, finite, readsBack, parses _ readsBack⟩

/-- A number so small that nothing of it is left in its literal. -/
private def vanishingNumeral : Numeral :=
  ⟨['0'], some (List.replicate 29 '0' ++ ['1'])⟩

/-- Not every number that can be read is read back from its literal. -/
theorem not_all_literals_read_back : ¬ ∀ text x, ReadsAs text x → ReadsAs (literal x) x := by
  intro all
  have reads : ReadsAs "0.000000000000000000000000000001" vanishingNumeral.toFloat :=
    ⟨vanishingNumeral, ⟨32, 1, 33⟩, by decide +kernel, by decide, rfl⟩
  have readsBack := all _ _ reads
  have isZero : literal vanishingNumeral.toFloat = "0" := by decide +kernel
  have readsZero : ReadsAs "0" (Numeral.mk ['0'] none).toFloat :=
    ⟨⟨['0'], none⟩, ⟨1, 1, 2⟩, by decide +kernel, by decide, rfl⟩
  rw [isZero] at readsBack
  have differ : parts vanishingNumeral.toFloat ≠ parts (Numeral.mk ['0'] none).toFloat := by
    decide +kernel
  exact differ (congrArg parts (readsBack.unique readsZero))

end Number

end Rulebook
