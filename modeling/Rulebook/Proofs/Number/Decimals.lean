import Rulebook.Proofs.Number.Literal
import Rulebook.Proofs.Number.Rounding

/-!
# Values of decimals

Decimals and the numbers that they are read as. The number nearest to a decimal depends on the value of
the decimal only, and the shortest decimal of a number is read back as the number.
-/

namespace Rulebook.Number

/-! ## Digits -/

private theorem lt_pow_length_digits (n : Nat) : n < 10 ^ (digits n).length :=
  (length_digits_le_iff (List.length_pos_iff.2 (digits_ne_nil n))).1 (Nat.le_refl _)

theorem pow_length_digits_le {n : Nat} (nonzero : n ≠ 0) : 10 ^ (digits n).length ≤ 10 * n := by
  obtain ⟨others, length⟩ := Nat.exists_eq_succ_of_ne_zero
    (Nat.ne_of_gt (List.length_pos_iff.2 (digits_ne_nil n)))
  rw [length, Nat.pow_succ, Nat.mul_comm]
  refine Nat.mul_le_mul_left 10 ?_
  by_contra tooSmall
  rcases Nat.eq_zero_or_pos others with rfl | positive
  · exact tooSmall (Nat.one_le_iff_ne_zero.2 nonzero)
  · have shorter := (length_digits_le_iff positive).2 (Nat.lt_of_not_le tooSmall)
    omega

namespace Decimal

/-! ## Values -/

def value (decimal : Decimal) : ℚ :=
  decimal.significand * 10 ^ decimal.exponent

variable {decimal other : Decimal}

theorem quotient_pos (decimal : Decimal) : 0 < decimal.quotient.2 :=
  scaled_denominator_pos (by decide) _ _ Nat.one_pos

theorem ratio_quotient (decimal : Decimal) :
    (decimal.quotient.1 : ℚ) / decimal.quotient.2 = decimal.value := by
  have scaledValue := @ratio_scaled 10 (by decide) decimal.exponent decimal.significand 1
  rwa [Nat.cast_one, div_one, Nat.cast_ofNat] at scaledValue

/-- A decimal lies between two powers of ten that its digits and its exponent tell. -/
theorem value_between (nonzero : decimal.significand ≠ 0) :
    (10 : ℚ) ^ (decimal.exponent + (digits decimal.significand).length - 1) ≤ decimal.value ∧
      decimal.value < 10 ^ (decimal.exponent + (digits decimal.significand).length) := by
  have above := lt_pow_length_digits decimal.significand
  have below := pow_length_digits_le nonzero
  have power (e : Int) : (10 : ℚ) ^ (decimal.exponent + e) = 10 ^ e * 10 ^ decimal.exponent := by
    rw [Int.add_comm, zpow_add₀ (by norm_num)]
  constructor
  · rw [Int.add_sub_assoc, power, value, zpow_sub_one₀ (by norm_num), zpow_natCast]
    refine mul_le_mul_of_nonneg_right ?_ (by positivity)
    rw [← div_eq_mul_inv, div_le_iff₀ (by norm_num)]
    exact_mod_cast (Nat.mul_comm 10 decimal.significand ▸ below)
  · rw [power, value, zpow_natCast]
    refine mul_lt_mul_of_pos_right ?_ (by positivity)
    exact_mod_cast above

private theorem two_zpow_le_ten_zpow : (2 : ℚ) ^ (1024 : Int) ≤ 10 ^ (400 : Int) := by
  have smaller : (2 : ℚ) ^ 128 ≤ 10 ^ 50 := by norm_num
  calc (2 : ℚ) ^ (1024 : Int) = (2 ^ 128) ^ 8 := by rw [zpow_ofNat, ← pow_mul]
    _ ≤ (10 ^ 50) ^ 8 := pow_le_pow_left₀ (by norm_num) smaller 8
    _ = 10 ^ (400 : Int) := by rw [zpow_ofNat, ← pow_mul]

private theorem ten_zpow_mul_two_zpow_lt : (10 : ℚ) ^ (-401 : Int) * 2 ^ (1074 : Int) < 1 / 2 := by
  have smaller : (2 : ℚ) ^ 215 < 10 ^ 80 := by norm_num
  have power : (2 : ℚ) ^ 1074 * 2 < 10 ^ 401 := by
    calc (2 : ℚ) ^ 1074 * 2 = (2 ^ 215) ^ 5 := by rw [← pow_succ, ← pow_mul]
      _ < (10 ^ 80) ^ 5 := pow_lt_pow_left₀ smaller (by norm_num) (by norm_num)
      _ = 10 ^ 400 := by rw [← pow_mul]
      _ ≤ 10 ^ 401 := pow_le_pow_right₀ (by norm_num) (by norm_num)
  rw [zpow_neg, zpow_ofNat, zpow_ofNat, ← div_eq_inv_mul, div_lt_div_iff₀ (by positivity) two_pos,
    one_mul]
  exact power

/-- The two outer cases of reading a decimal find what rounding finds. -/
theorem bits_eq_nearestBits (decimal : Decimal) :
    decimal.bits = nearestBits decimal.quotient.1 decimal.quotient.2 := by
  have positive := decimal.quotient_pos
  have isValue := decimal.ratio_quotient
  have powers {e f : Int} (le : e ≤ f) : (10 : ℚ) ^ e ≤ 10 ^ f :=
    zpow_le_zpow_right₀ (by norm_num) le
  unfold bits
  dsimp only
  split_ifs with zero great small
  · have noNumerator : decimal.quotient.1 = 0 := by
      rw [quotient, scaled, zero]
      split
      · exact Nat.zero_mul _
      · rfl
    rw [nearestBits, if_pos noNumerator]
  · obtain ⟨atLeast, -⟩ := value_between zero
    refine (nearestBits_of_great positive ?_).symm
    rw [isValue]
    calc (2 : ℚ) ^ (1024 : Int) ≤ 10 ^ (400 : Int) := two_zpow_le_ten_zpow
      _ ≤ 10 ^ (decimal.exponent + (digits decimal.significand).length - 1) := powers (by omega)
      _ ≤ decimal.value := atLeast
  · obtain ⟨-, below⟩ := value_between zero
    refine (nearestBits_of_small positive ?_).symm
    rw [isValue]
    calc decimal.value * 2 ^ (1074 : Int)
        < 10 ^ (decimal.exponent + (digits decimal.significand).length) * 2 ^ (1074 : Int) :=
          mul_lt_mul_of_pos_right below (by positivity)
      _ ≤ 10 ^ (-401 : Int) * 2 ^ (1074 : Int) :=
          mul_le_mul_of_nonneg_right (powers (by omega)) (by positivity)
      _ < 1 / 2 := ten_zpow_mul_two_zpow_lt
  · rfl

/-- No decimal is nearest to anything beyond infinity. -/
theorem bits_le (decimal : Decimal) : decimal.bits ≤ infinityBits :=
  decimal.bits_eq_nearestBits ▸ nearestBits_le decimal.quotient.1 decimal.quotient.2

/-- Decimals of the same value are read as the same number. -/
theorem bits_congr (same : decimal.value = other.value) : decimal.bits = other.bits := by
  rw [bits_eq_nearestBits, bits_eq_nearestBits]
  apply nearestBits_congr decimal.quotient_pos other.quotient_pos
  rw [ratio_quotient, ratio_quotient, same]

/-- A decimal whose value is a quotient is read as the number nearest to the quotient. -/
theorem bits_of_value {numerator denominator : Nat} (positive : 0 < denominator)
    (isValue : decimal.value = numerator / denominator) :
    decimal.bits = nearestBits numerator denominator := by
  rw [bits_eq_nearestBits]
  apply nearestBits_congr decimal.quotient_pos positive
  rw [ratio_quotient, isValue]

/-! ## The shortest decimal -/

private theorem value_trim (decimal : Decimal) : decimal.trim.value = decimal.value := by
  fun_induction trim decimal with
  | case1 decimal zero => simp [value, zero]
  | case2 decimal nonzero divides inductionHypothesis =>
      rw [inductionHypothesis, value, value, zpow_add_one₀ (by norm_num)]
      have whole : ((decimal.significand / 10 : Nat) : ℚ) * 10 = decimal.significand := by
        exact_mod_cast Nat.div_mul_cancel (Nat.dvd_of_mod_eq_zero divides)
      dsimp only
      rw [← whole]
      ring
  | case3 decimal nonzero notDivides => rfl

private theorem value_exact (mantissa : Nat) (exponent : Int) :
    (exact mantissa exponent).value = mantissa * 2 ^ exponent := by
  rw [exact]
  split
  · next notNegative =>
      rw [value, zpow_zero, mul_one, Nat.cast_mul, Nat.pow_eq, Nat.cast_pow, ← zpow_natCast,
        Int.toNat_of_nonneg notNegative]
      rfl
  · next negative =>
      have power : (5 : ℚ) ^ (-exponent) = 10 ^ (-exponent) * 2 ^ exponent := by
        rw [show (10 : ℚ) = 5 * 2 by norm_num, mul_zpow, mul_assoc, ← zpow_add₀ two_ne_zero,
          Int.add_left_neg, zpow_zero, mul_one]
      rw [value, Nat.cast_mul, Nat.pow_eq, Nat.cast_pow, ← zpow_natCast,
        Int.toNat_of_nonneg (by omega), Nat.cast_ofNat, power]
      dsimp only
      rw [mul_assoc, mul_right_comm, ← zpow_add₀ (by norm_num), Int.add_left_neg, zpow_zero, one_mul]

end Decimal

/-- The value of a finite magnitude. -/
theorem ratio_quotient (mantissa : Nat) (exponent : Int) :
    ((quotient mantissa exponent).1 : ℚ) / (quotient mantissa exponent).2 =
      mantissa * 2 ^ exponent := by
  have scaledValue := @ratio_scaled 2 two_pos exponent mantissa 1
  rwa [Nat.cast_one, div_one, Nat.cast_ofNat] at scaledValue

theorem quotient_pos (mantissa : Nat) (exponent : Int) : 0 < (quotient mantissa exponent).2 :=
  scaled_denominator_pos two_pos _ _ Nat.one_pos

/-- A finite magnitude is the number nearest to itself. -/
theorem nearestBits_quotient {mantissa : Nat} {exponent : Int}
    (isMagnitude : IsMagnitude mantissa exponent) :
    nearestBits (quotient mantissa exponent).1 (quotient mantissa exponent).2 =
      magnitudeBits mantissa exponent := by
  have same : ((quotient mantissa exponent).1 : ℚ) / (quotient mantissa exponent).2 *
      2 ^ (-exponent) = mantissa := by
    rw [ratio_quotient, mul_assoc, ← zpow_add₀ two_ne_zero, Int.add_right_neg, zpow_zero, mul_one]
  apply nearestBits_of_near isMagnitude (quotient_pos mantissa exponent)
  · rw [same, sub_self, abs_zero]
    norm_num
  · intro _
    exact same.ge

namespace Decimal

private theorem bits_getD_exact {mantissa : Nat} {exponent : Int} {found? : Option Decimal}
    (reads : ∀ decimal ∈ found?, decimal.bits =
      nearestBits (Number.quotient mantissa exponent).1 (Number.quotient mantissa exponent).2) :
    (found?.getD (exact mantissa exponent)).bits =
      nearestBits (Number.quotient mantissa exponent).1 (Number.quotient mantissa exponent).2 := by
  cases found? with
  | none =>
      apply bits_of_value (Number.quotient_pos mantissa exponent)
      rw [Option.getD_none, value_exact, Number.ratio_quotient]
  | some decimal => exact reads decimal rfl

/-- The shortest decimal of a number is read back as the number. -/
theorem bits_shortest (mantissa : Nat) (exponent : Int) :
    (shortest mantissa exponent).bits =
      nearestBits (Number.quotient mantissa exponent).1 (Number.quotient mantissa exponent).2 := by
  rw [shortest, bits_congr (value_trim _)]
  apply bits_getD_exact
  intro decimal isFound
  obtain ⟨more, -, found⟩ := List.exists_of_findSome?_eq_some isFound
  have isRead := List.find?_some found
  exact of_decide_eq_true isRead

end Decimal

end Rulebook.Number
