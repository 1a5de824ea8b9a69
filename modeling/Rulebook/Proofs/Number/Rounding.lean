import Mathlib.Algebra.Order.Field.Power
import Mathlib.Algebra.Order.Field.Rat
import Mathlib.Tactic.FieldSimp
import Mathlib.Tactic.Linarith
import Mathlib.Tactic.Positivity
import Mathlib.Tactic.Ring
import Rulebook.Proofs.Number.Packed

/-!
# Rounding

Rounding to the nearest number depends on the value of a quotient only. The exponent that is chosen for a
quotient is the one at which it has a mantissa of 53 digits, or the least one, and a quotient less than
half a unit of a number's last digit away from the number is rounded to it.
-/

namespace Rulebook.Number

/-! ## Values of quotients -/

def ratio (quotient : Nat × Nat) : ℚ :=
  quotient.1 / quotient.2

theorem ratio_scaled {base : Nat} (positive : 0 < base) (exponent : Int)
    (numerator denominator : Nat) :
    ratio (scaled base exponent numerator denominator) =
      (numerator : ℚ) / denominator * (base : ℚ) ^ exponent := by
  have nonzero : (base : ℚ) ≠ 0 := Nat.cast_ne_zero.2 positive.ne'
  rw [scaled]
  split
  · next notNegative =>
      have power : (base : ℚ) ^ exponent = ((base.pow exponent.toNat : Nat) : ℚ) := by
        rw [Nat.pow_eq, Nat.cast_pow, ← zpow_natCast, Int.toNat_of_nonneg notNegative]
      rw [ratio, power, Nat.cast_mul, mul_div_right_comm]
  · next negative =>
      have power : (base : ℚ) ^ exponent = ((base.pow (-exponent).toNat : Nat) : ℚ)⁻¹ := by
        rw [Nat.pow_eq, Nat.cast_pow, ← zpow_natCast, ← zpow_neg,
          Int.toNat_of_nonneg (by omega), neg_neg]
      rw [ratio, power, Nat.cast_mul, div_mul_eq_div_div, div_eq_mul_inv _ ((base.pow _ : Nat) : ℚ)]

theorem scaled_denominator_pos {base : Nat} (positive : 0 < base) (exponent : Int) (numerator : Nat)
    {denominator : Nat} (denominatorPositive : 0 < denominator) :
    0 < (scaled base exponent numerator denominator).2 := by
  rw [scaled]
  split
  · exact denominatorPositive
  · exact Nat.mul_pos denominatorPositive (Nat.pow_pos positive)

/-! ## Quotients rounded to whole numbers -/

section RoundedQuotient

variable {numerator denominator other otherDenominator : Nat}

/-- A quotient is rounded to the whole number below it or the one above it, as the part between the
quotient and the one below it is less or more than a half. -/
theorem exists_part_of_roundedQuotient (positive : 0 < denominator) :
    ∃ (whole : Nat) (part : ℚ), (numerator : ℚ) / denominator = whole + part ∧
      0 ≤ part ∧ part < 1 ∧
      ((part ≤ 1 / 2 ∧ roundedQuotient numerator denominator = whole) ∨
        (1 / 2 ≤ part ∧ roundedQuotient numerator denominator = whole + 1)) := by
  have castPositive : (0 : ℚ) < denominator := Nat.cast_pos.2 positive
  have restBound := Nat.mod_lt numerator positive
  have division : (numerator : ℚ) / denominator =
      (numerator / denominator : Nat) + ((numerator % denominator : Nat) : ℚ) / denominator := by
    have whole := congrArg (Nat.cast : Nat → ℚ) (Nat.div_add_mod numerator denominator)
    rw [Nat.cast_add, Nat.cast_mul] at whole
    field_simp
    linarith
  have atMost (small : 2 * (numerator % denominator) ≤ denominator) :
      ((numerator % denominator : Nat) : ℚ) / denominator ≤ 1 / 2 := by
    rw [div_le_div_iff₀ castPositive two_pos]
    exact_mod_cast (by omega : numerator % denominator * 2 ≤ 1 * denominator)
  have atLeast (great : denominator ≤ 2 * (numerator % denominator)) :
      1 / 2 ≤ ((numerator % denominator : Nat) : ℚ) / denominator := by
    rw [div_le_div_iff₀ two_pos castPositive]
    exact_mod_cast (by omega : 1 * denominator ≤ numerator % denominator * 2)
  refine ⟨_, _, division, div_nonneg (Nat.cast_nonneg _) castPositive.le, ?_, ?_⟩
  · rw [div_lt_one castPositive]
    exact Nat.cast_lt.2 restBound
  · unfold roundedQuotient
    dsimp only
    split_ifs with below above
    · exact .inl ⟨atMost below.le, rfl⟩
    · exact .inr ⟨atLeast above.le, rfl⟩
    · rcases Nat.mod_two_eq_zero_or_one (numerator / denominator) with even | odd
      · exact .inl ⟨atMost (by omega), by rw [even, Nat.add_zero]⟩
      · exact .inr ⟨atLeast (by omega), by rw [odd]⟩

/-- What is nearer than one half is what the quotient is rounded to. -/
theorem roundedQuotient_eq_of_near {n : Nat} (positive : 0 < denominator)
    (near : |(numerator : ℚ) / denominator - n| < 1 / 2) :
    roundedQuotient numerator denominator = n := by
  obtain ⟨whole, part, division, notNegative, small, rounded⟩ :=
    @exists_part_of_roundedQuotient numerator denominator positive
  rw [division, abs_lt] at near
  rcases rounded with ⟨atMost, isRounded⟩ | ⟨atLeast, isRounded⟩
  · have lower : (n : ℚ) < ((whole + 1 : Nat) : ℚ) := by
      push_cast
      linarith
    have upper : (whole : ℚ) < ((n + 1 : Nat) : ℚ) := by
      push_cast
      linarith
    have := Nat.cast_lt.1 lower
    have := Nat.cast_lt.1 upper
    omega
  · have lower : (n : ℚ) < ((whole + 2 : Nat) : ℚ) := by
      push_cast
      linarith
    have upper : (whole : ℚ) < (n : ℚ) := by linarith
    have := Nat.cast_lt.1 lower
    have := Nat.cast_lt.1 upper
    omega

/-- Rounding is off by one half at most. -/
theorem abs_roundedQuotient_sub_le (positive : 0 < denominator) :
    |(roundedQuotient numerator denominator : ℚ) - numerator / denominator| ≤ 1 / 2 := by
  obtain ⟨whole, part, division, notNegative, small, rounded⟩ :=
    @exists_part_of_roundedQuotient numerator denominator positive
  rw [division, abs_le]
  rcases rounded with ⟨atMost, isRounded⟩ | ⟨atLeast, isRounded⟩
  · rw [isRounded]
    constructor <;> linarith
  · rw [isRounded, Nat.cast_add, Nat.cast_one]
    constructor <;> linarith

theorem roundedQuotient_mul_left {factor : Nat} (positive : 0 < factor) :
    roundedQuotient (factor * numerator) (factor * denominator) =
      roundedQuotient numerator denominator := by
  have compare (a b : Nat) : 2 * (factor * a) < factor * b ↔ 2 * a < b := by
    rw [Nat.mul_left_comm]
    exact Nat.mul_lt_mul_left positive
  have compareOther (a b : Nat) : factor * b < 2 * (factor * a) ↔ b < 2 * a := by
    rw [Nat.mul_left_comm]
    exact Nat.mul_lt_mul_left positive
  simp only [roundedQuotient, Nat.mul_div_mul_left _ _ positive, Nat.mul_mod_mul_left, compare,
    compareOther]

/-- A quotient is rounded by its value. -/
theorem roundedQuotient_congr (positive : 0 < denominator) (otherPositive : 0 < otherDenominator)
    (same : (numerator : ℚ) / denominator = other / otherDenominator) :
    roundedQuotient numerator denominator = roundedQuotient other otherDenominator := by
  have crossed : numerator * otherDenominator = other * denominator := by
    rw [div_eq_div_iff (Nat.cast_ne_zero.2 positive.ne') (Nat.cast_ne_zero.2 otherPositive.ne')]
      at same
    exact_mod_cast same
  calc roundedQuotient numerator denominator
      = roundedQuotient (otherDenominator * numerator) (otherDenominator * denominator) :=
        (roundedQuotient_mul_left otherPositive).symm
    _ = roundedQuotient (denominator * other) (denominator * otherDenominator) := by
        rw [Nat.mul_comm otherDenominator numerator, crossed, Nat.mul_comm other,
          Nat.mul_comm otherDenominator]
    _ = roundedQuotient other otherDenominator := roundedQuotient_mul_left positive

end RoundedQuotient

/-! ## Exponents of quotients -/

/-- Whether an exponent is the one at which a value has a mantissa of 53 digits, or the least one for
values that are too small for that. -/
structure IsExponentOf (value : ℚ) (exponent : Int) : Prop where
  least_le : leastExponent ≤ exponent
  lt : value < 2 ^ (exponent + 53)
  le : exponent = leastExponent ∨ 2 ^ (exponent + 52) ≤ value

theorem zpow_two_lt_iff {e f : Int} : (2 : ℚ) ^ e < 2 ^ f ↔ e < f :=
  zpow_lt_zpow_iff_right₀ one_lt_two

theorem zpow_two_le_iff {e f : Int} : (2 : ℚ) ^ e ≤ 2 ^ f ↔ e ≤ f :=
  zpow_le_zpow_iff_right₀ one_lt_two

theorem le_mul_zpow_neg_iff {value : ℚ} {e f : Int} :
    (2 : ℚ) ^ f ≤ value * 2 ^ (-e) ↔ 2 ^ (e + f) ≤ value := by
  rw [zpow_neg, ← div_eq_mul_inv, le_div_iff₀ (by positivity), ← zpow_add₀ two_ne_zero,
    Int.add_comm]

theorem mul_zpow_neg_lt_iff {value : ℚ} {e f : Int} :
    value * 2 ^ (-e) < (2 : ℚ) ^ f ↔ value < 2 ^ (e + f) := by
  rw [← not_le, le_mul_zpow_neg_iff, not_le]

theorem IsExponentOf.le_of {value : ℚ} {exponent other : Int} (isExponent : IsExponentOf value exponent)
    (isOther : IsExponentOf value other) : other ≤ exponent := by
  rcases isOther.le with isLeast | atLeast
  · rw [isLeast]
    exact isExponent.least_le
  · have inside := zpow_two_lt_iff.1 (atLeast.trans_lt isExponent.lt)
    omega

/-- A value has one exponent. -/
theorem IsExponentOf.unique {value : ℚ} {exponent other : Int}
    (isExponent : IsExponentOf value exponent) (isOther : IsExponentOf value other) :
    exponent = other :=
  Int.le_antisymm (isOther.le_of isExponent) (isExponent.le_of isOther)

theorem zpow_log2_le {n : Nat} (nonzero : n ≠ 0) : (2 : ℚ) ^ (n.log2 : Int) ≤ n := by
  rw [zpow_natCast]
  exact_mod_cast Nat.log2_self_le nonzero

theorem lt_zpow_log2 (n : Nat) : (n : ℚ) < 2 ^ ((n.log2 : Int) + 1) := by
  have below : n < 2 ^ (n.log2 + 1) := Nat.lt_log2_self
  rw [← Nat.cast_succ, zpow_natCast]
  exact_mod_cast below

section ExponentFor

variable {numerator denominator : Nat}

/-- A quotient lies between two powers of two that the digits of its parts tell. -/
theorem quotient_between (nonzero : numerator ≠ 0) (positive : 0 < denominator) :
    (2 : ℚ) ^ ((numerator.log2 : Int) - denominator.log2 - 1) < numerator / denominator ∧
      (numerator : ℚ) / denominator < 2 ^ ((numerator.log2 : Int) - denominator.log2 + 1) := by
  have castPositive : (0 : ℚ) < denominator := Nat.cast_pos.2 positive
  have power (e f : Int) : (2 : ℚ) ^ e * 2 ^ f = 2 ^ (e + f) := (zpow_add₀ two_ne_zero e f).symm
  have below := lt_zpow_log2 denominator
  have above := zpow_log2_le positive.ne'
  constructor
  · rw [lt_div_iff₀ castPositive]
    calc (2 : ℚ) ^ ((numerator.log2 : Int) - denominator.log2 - 1) * denominator
        < 2 ^ ((numerator.log2 : Int) - denominator.log2 - 1) *
            2 ^ ((denominator.log2 : Int) + 1) := by
          exact mul_lt_mul_of_pos_left below (by positivity)
      _ = 2 ^ (numerator.log2 : Int) := by
          rw [power]
          congr 1
          omega
      _ ≤ numerator := zpow_log2_le nonzero
  · rw [div_lt_iff₀ castPositive]
    calc (numerator : ℚ) < 2 ^ ((numerator.log2 : Int) + 1) := lt_zpow_log2 numerator
      _ = 2 ^ ((numerator.log2 : Int) - denominator.log2 + 1) * 2 ^ (denominator.log2 : Int) := by
          rw [power]
          congr 1
          omega
      _ ≤ 2 ^ ((numerator.log2 : Int) - denominator.log2 + 1) * denominator := by
          exact mul_le_mul_of_nonneg_left above (by positivity)

theorem le_div_iff_le_ratio {bound : Nat} {quotient : Nat × Nat} (positive : 0 < quotient.2) :
    bound ≤ quotient.1 / quotient.2 ↔ (bound : ℚ) ≤ ratio quotient := by
  have castPositive : (0 : ℚ) < quotient.2 := Nat.cast_pos.2 positive
  rw [Nat.le_div_iff_mul_le positive, ratio, le_div_iff₀ castPositive]
  exact_mod_cast Iff.rfl

/-- At an exponent a quotient has more than 53 digits exactly if it is great enough. -/
theorem overflows_iff (positive : 0 < denominator) (exponent : Int) :
    2 * leastMantissa ≤ (scaled 2 (-exponent) numerator denominator).1 /
        (scaled 2 (-exponent) numerator denominator).2 ↔
      (2 : ℚ) ^ (exponent + 53) ≤ numerator / denominator := by
  have digits : ((2 * leastMantissa : Nat) : ℚ) = 2 ^ (53 : Int) := by
    norm_num [leastMantissa]
  rw [le_div_iff_le_ratio (scaled_denominator_pos two_pos _ _ positive), ratio_scaled two_pos, digits,
    Nat.cast_ofNat, le_mul_zpow_neg_iff]

theorem isExponentOf_exponentFor (nonzero : numerator ≠ 0) (positive : 0 < denominator) :
    IsExponentOf (numerator / denominator) (exponentFor numerator denominator) := by
  obtain ⟨above, below⟩ := quotient_between nonzero positive
  have overflows := @overflows_iff numerator denominator positive
  generalize (numerator : ℚ) / denominator = value at above below overflows ⊢
  unfold exponentFor
  dsimp only
  generalize isLow : max ((numerator.log2 : Int) - denominator.log2 - 53) leastExponent = low
  have least_le : leastExponent ≤ low := isLow ▸ le_max_right _ _
  have le_low : (numerator.log2 : Int) - denominator.log2 - 53 ≤ low := isLow ▸ le_max_left _ _
  split
  · next overflow =>
      rw [overflows low] at overflow
      have inRange : value < 2 ^ (low + 1 + 53) :=
        below.trans_le (zpow_two_le_iff.2 (by omega))
      exact ⟨by omega, inRange, .inr (by convert overflow using 2; omega)⟩
  · next fits =>
      rw [overflows low, not_le] at fits
      refine ⟨least_le, fits, ?_⟩
      rcases max_choice ((numerator.log2 : Int) - denominator.log2 - 53) leastExponent with
        isQuotient | isLeast
      · have atLeast : (2 : ℚ) ^ (low + 52) < value := by
          refine lt_of_eq_of_lt ?_ above
          congr 1
          omega
        exact .inr atLeast.le
      · exact .inl (isLow.symm.trans isLeast)

end ExponentFor

/-! ## The nearest number -/

section NearestBits

variable {numerator denominator other otherDenominator : Nat}

theorem cast_leastMantissa : ((leastMantissa : Nat) : ℚ) = 2 ^ (52 : Int) := by
  norm_num [leastMantissa]

/-- The mantissa of a quotient at an exponent, rounded to a whole number. -/
def mantissaAt (numerator denominator : Nat) (exponent : Int) : Nat :=
  roundedQuotient (scaled 2 (-exponent) numerator denominator).1
    (scaled 2 (-exponent) numerator denominator).2

theorem ratio_scaled_two (exponent : Int) (numerator denominator : Nat) :
    ((scaled 2 (-exponent) numerator denominator).1 : ℚ) /
        (scaled 2 (-exponent) numerator denominator).2 =
      numerator / denominator * 2 ^ (-exponent) :=
  ratio_scaled two_pos (-exponent) numerator denominator

private theorem mantissaAt_eq_of_near {n : Nat} {exponent : Int} (positive : 0 < denominator)
    (near : |(numerator : ℚ) / denominator * 2 ^ (-exponent) - n| < 1 / 2) :
    mantissaAt numerator denominator exponent = n := by
  apply roundedQuotient_eq_of_near (scaled_denominator_pos two_pos _ _ positive)
  rwa [ratio_scaled_two]

private theorem abs_mantissaAt_sub_le (positive : 0 < denominator) (exponent : Int) :
    |(mantissaAt numerator denominator exponent : ℚ) -
      numerator / denominator * 2 ^ (-exponent)| ≤ 1 / 2 := by
  rw [← ratio_scaled_two]
  exact abs_roundedQuotient_sub_le (scaled_denominator_pos two_pos _ _ positive)

private theorem mantissaAt_congr (positive : 0 < denominator) (otherPositive : 0 < otherDenominator)
    (same : (numerator : ℚ) / denominator = other / otherDenominator) (exponent : Int) :
    mantissaAt numerator denominator exponent = mantissaAt other otherDenominator exponent := by
  apply roundedQuotient_congr (scaled_denominator_pos two_pos _ _ positive)
    (scaled_denominator_pos two_pos _ _ otherPositive)
  rw [ratio_scaled_two, ratio_scaled_two, same]

/-- The bits of the nearest number are those of the mantissa at the exponent of a quotient. -/
theorem nearestBits_eq (nonzero : numerator ≠ 0) (positive : 0 < denominator) {exponent : Int}
    (isExponent : IsExponentOf (numerator / denominator) exponent) :
    nearestBits numerator denominator =
      min (magnitudeBits (mantissaAt numerator denominator exponent) exponent) infinityBits := by
  rw [nearestBits, if_neg nonzero, (isExponentOf_exponentFor nonzero positive).unique isExponent]
  rfl

/-- The nearest number depends on the value of a quotient only. -/
theorem nearestBits_congr (positive : 0 < denominator) (otherPositive : 0 < otherDenominator)
    (same : (numerator : ℚ) / denominator = other / otherDenominator) :
    nearestBits numerator denominator = nearestBits other otherDenominator := by
  have zero_iff {n d : Nat} (positive : 0 < d) : (n : ℚ) / d = 0 ↔ n = 0 := by
    rw [div_eq_zero_iff, Nat.cast_eq_zero, or_iff_left (Nat.cast_ne_zero.2 positive.ne')]
  have bothZero : numerator = 0 ↔ other = 0 := by
    rw [← zero_iff positive, same, zero_iff otherPositive]
  by_cases zero : numerator = 0
  · rw [nearestBits, if_pos zero, nearestBits, if_pos (bothZero.1 zero)]
  · have otherNonzero : other ≠ 0 := fun isZero => zero (bothZero.2 isZero)
    have isExponent := isExponentOf_exponentFor zero positive
    rw [nearestBits_eq zero positive isExponent,
      nearestBits_eq otherNonzero otherPositive (same ▸ isExponent),
      mantissaAt_congr positive otherPositive same]

/-- A quotient less than half a unit of the last digit away from a number is rounded to it, if it is not
below a power of two. -/
theorem nearestBits_of_near {mantissa : Nat} {exponent : Int}
    (isMagnitude : IsMagnitude mantissa exponent) (positive : 0 < denominator)
    (near : |(numerator : ℚ) / denominator * 2 ^ (-exponent) - mantissa| < 1 / 2)
    (atPower : mantissa = leastMantissa → (mantissa : ℚ) ≤ numerator / denominator * 2 ^ (-exponent)) :
    nearestBits numerator denominator = magnitudeBits mantissa exponent := by
  obtain ⟨below, above⟩ := abs_lt.1 near
  have double : (2 : ℚ) ^ (53 : Int) = 2 * 2 ^ (52 : Int) := by norm_num
  by_cases zero : numerator = 0
  · have noMantissa : mantissa = 0 := by
      rw [zero, Nat.cast_zero, zero_div, zero_mul] at below above
      have small : (mantissa : ℚ) < ((1 : Nat) : ℚ) := by
        push_cast
        linarith
      exact Nat.lt_one_iff.1 (Nat.cast_lt.1 small)
    have isLeast : exponent = leastExponent :=
      isMagnitude.normal.resolve_right (by rw [noMantissa]; decide)
    rw [nearestBits, if_pos zero, magnitudeBits, noMantissa, isLeast, Int.sub_self]
    rfl
  · -- a quotient below the least mantissa would be rounded at the next lower exponent
    have isExponent : IsExponentOf (numerator / denominator) exponent := by
      refine ⟨isMagnitude.least_le, mul_zpow_neg_lt_iff.1 ?_, ?_⟩
      · have atMost : ((mantissa + 1 : Nat) : ℚ) ≤ ((2 * leastMantissa : Nat) : ℚ) :=
          Nat.cast_le.2 isMagnitude.lt
        push_cast at atMost
        rw [cast_leastMantissa] at atMost
        linarith
      · refine isMagnitude.normal.imp_right fun atLeast => le_mul_zpow_neg_iff.1 ?_
        rcases atLeast.eq_or_lt with isPower | further
        · rw [← cast_leastMantissa, isPower]
          exact atPower isPower.symm
        · have more : ((leastMantissa + 1 : Nat) : ℚ) ≤ (mantissa : ℚ) := Nat.cast_le.2 further
          push_cast at more
          rw [cast_leastMantissa] at more
          linarith
    rw [nearestBits_eq zero positive isExponent, mantissaAt_eq_of_near positive near]
    exact min_eq_left isMagnitude.bits_lt.le

/-- A quotient below half the least number is rounded to zero. -/
theorem nearestBits_of_small (positive : 0 < denominator)
    (small : (numerator : ℚ) / denominator * 2 ^ (1074 : Int) < 1 / 2) :
    nearestBits numerator denominator = 0 := by
  have isMagnitude : IsMagnitude 0 leastExponent :=
    ⟨Int.le_refl _, by decide, by decide, .inl rfl⟩
  refine nearestBits_of_near isMagnitude positive ?_ fun isPower => by cases isPower
  have notNegative : 0 ≤ (numerator : ℚ) / denominator * 2 ^ (1074 : Int) := by positivity
  rw [Nat.cast_zero, sub_zero, leastExponent, neg_neg, abs_of_nonneg notNegative]
  exact small

theorem nearestBits_le (numerator denominator : Nat) :
    nearestBits numerator denominator ≤ infinityBits := by
  rw [nearestBits]
  split
  · exact Nat.zero_le _
  · exact min_le_right _ _

/-- A quotient that is no less than a power of two is not rounded below it. -/
theorem le_nearestBits {exponent : Int} (positive : 0 < denominator)
    (isExponent : leastExponent ≤ exponent)
    (atLeast : (2 : ℚ) ^ (exponent + 52) ≤ numerator / denominator) :
    min (magnitudeBits leastMantissa exponent) infinityBits ≤ nearestBits numerator denominator := by
  have nonzero : numerator ≠ 0 := by
    rintro rfl
    rw [Nat.cast_zero, zero_div] at atLeast
    exact absurd atLeast (not_le.2 (by positivity))
  have isOwn := isExponentOf_exponentFor nonzero positive
  generalize exponentFor numerator denominator = own at isOwn
  have notLess : exponent ≤ own := by
    have inside := zpow_two_lt_iff.1 (atLeast.trans_lt isOwn.lt)
    omega
  have full : (2 : ℚ) ^ (52 : Int) ≤ numerator / denominator * 2 ^ (-own) := by
    refine le_mul_zpow_neg_iff.2 ?_
    rcases isOwn.le with isLeast | ownAtLeast
    · have same : own = exponent := by omega
      rwa [same]
    · exact ownAtLeast
  have rounded := abs_le.1 (@abs_mantissaAt_sub_le numerator denominator positive own)
  rw [nearestBits_eq nonzero positive isOwn]
  generalize mantissaAt numerator denominator own = mantissa at rounded
  have mantissaAtLeast : leastMantissa ≤ mantissa := by
    have close : ((leastMantissa : Nat) : ℚ) < ((mantissa + 1 : Nat) : ℚ) := by
      rw [cast_leastMantissa]
      push_cast
      linarith [rounded.1]
    exact Nat.lt_succ_iff.1 (Nat.cast_lt.1 close)
  refine min_le_min_right infinityBits ?_
  simp only [magnitudeBits, leastMantissa] at mantissaAtLeast ⊢
  omega

/-- A quotient beyond the finite numbers is rounded to infinity. -/
theorem nearestBits_of_great (positive : 0 < denominator)
    (great : (2 : ℚ) ^ (1024 : Int) ≤ numerator / denominator) :
    nearestBits numerator denominator = infinityBits :=
  Nat.le_antisymm (nearestBits_le numerator denominator)
    (@le_nearestBits numerator denominator 972 positive (by decide) great)

end NearestBits

end Rulebook.Number
