import Rulebook.Number.Binary64

/-!
# Parts of numbers

The parts that are read from the bits of a floating-point number are those that its comparisons
are defined by.
-/

namespace Rulebook.Number

open Float.Model (UnpackedFloat)
open Float.Model.UnpackedFloat (Sign)

def isNegative : Sign → Bool
  | .negative => true
  | .positive => false

def partsOf : UnpackedFloat → Parts
  | .notANumber => .notANumber
  | .infinity sign => .infinite (isNegative sign)
  | .zero sign => .finite (isNegative sign) 0 leastExponent
  | .finite sign mantissa exponent _ => .finite (isNegative sign) mantissa exponent

private theorem isNegative_ofBitVec (bits : BitVec 1) :
    isNegative (Sign.ofBitVec bits) = decide (bits.toNat = 1) := by
  revert bits
  decide

/-! ## The fields of a number -/

variable (bits : BitVec 64)

theorem toNat_unpackMantissa :
    (@UnpackedFloat.unpackMantissa Float.Model.Format.binary64 bits).toNat =
      bits.toNat % leastMantissa := by
  simp [UnpackedFloat.unpackMantissa, BitVec.extractLsb, BitVec.extractLsb', leastMantissa]

theorem toNat_unpackExponent :
    (@UnpackedFloat.unpackExponent Float.Model.Format.binary64 bits).toNat =
      bits.toNat / leastMantissa % (greatestField + 1) := by
  simp [UnpackedFloat.unpackExponent, BitVec.extractLsb, BitVec.extractLsb', leastMantissa,
    greatestField, Nat.shiftRight_eq_div_pow]

private theorem toNat_unpackSign :
    decide ((@UnpackedFloat.unpackSign Float.Model.Format.binary64 bits).toNat = 1) =
      decide (signBit ≤ bits.toNat) := by
  have bound := bits.isLt
  rw [decide_eq_decide]
  unfold UnpackedFloat.unpackSign
  simp only [BitVec.extractLsb, BitVec.extractLsb', signBit, Nat.shiftRight_eq_div_pow,
    BitVec.toNat_cast, BitVec.toNat_ofNat]
  omega

/-- A mantissa with the leading digit that its bits leave out. -/
theorem toNat_one_append (mantissa : BitVec 52) :
    (1#1 ++ mantissa).toNat = leastMantissa + mantissa.toNat := by
  rw [BitVec.toNat_append, ← Nat.shiftLeft_add_eq_or_of_lt mantissa.isLt]
  rfl

/-- The parts of a number, by the fields of its bits. -/
theorem partsOf_unpack :
    partsOf (UnpackedFloat.unpack Float.Model.Format.binary64 bits) =
      if @UnpackedFloat.unpackExponent Float.Model.Format.binary64 bits = -1#11 then
        if @UnpackedFloat.unpackMantissa Float.Model.Format.binary64 bits = 0#52 then
          .infinite (isNegative
            (Sign.ofBitVec (@UnpackedFloat.unpackSign Float.Model.Format.binary64 bits)))
        else .notANumber
      else if @UnpackedFloat.unpackExponent Float.Model.Format.binary64 bits = 0#11 then
        .finite
          (isNegative (Sign.ofBitVec (@UnpackedFloat.unpackSign Float.Model.Format.binary64 bits)))
          (@UnpackedFloat.unpackMantissa Float.Model.Format.binary64 bits).toNat leastExponent
      else
        .finite
          (isNegative (Sign.ofBitVec (@UnpackedFloat.unpackSign Float.Model.Format.binary64 bits)))
          (1#1 ++ @UnpackedFloat.unpackMantissa Float.Model.Format.binary64 bits).toNat
          (((@UnpackedFloat.unpackExponent Float.Model.Format.binary64 bits).toNat : Int) -
            ((Float.Model.Format.binary64.exponentBias : Int) + (52 : Nat))) := by
  unfold UnpackedFloat.unpack
  by_cases greatest : @UnpackedFloat.unpackExponent Float.Model.Format.binary64 bits = -1#11
  · by_cases empty : @UnpackedFloat.unpackMantissa Float.Model.Format.binary64 bits = 0#52
    · rw [if_pos greatest, if_pos empty, if_pos greatest, if_pos empty]
      rfl
    · rw [if_pos greatest, if_neg empty, if_pos greatest, if_neg empty]
      rfl
  · rw [if_neg greatest, if_neg greatest]
    by_cases least : @UnpackedFloat.unpackExponent Float.Model.Format.binary64 bits = 0#11
    · by_cases empty : @UnpackedFloat.unpackMantissa Float.Model.Format.binary64 bits = 0#52
      · rw [if_pos least, dif_pos empty, if_pos least, empty]
        rfl
      · have exponent :
            ((@UnpackedFloat.unpackExponent Float.Model.Format.binary64 bits).toNat : Int) -
              ((Float.Model.Format.binary64.exponentBias : Int) + (52 : Nat)) + 1 =
                leastExponent := by
          rw [least]
          rfl
        rw [if_pos least, dif_neg empty, if_pos least]
        exact congrArg (Parts.finite _ _) exponent
    · rw [if_neg least, if_neg least]
      rfl

/-- Exponent and mantissa stand in the bits of a number as its format has them. -/
theorem parts_eq_partsOf (x : Float) : parts x = partsOf x.toModel.unpack := by
  have mantissa := toNat_unpackMantissa x.toBits.toBitVec
  have field := toNat_unpackExponent x.toBits.toBitVec
  have sign := toNat_unpackSign x.toBits.toBitVec
  have greatest : (@UnpackedFloat.unpackExponent Float.Model.Format.binary64 x.toBits.toBitVec =
      -1#11) ↔ x.toBits.toNat / leastMantissa % (greatestField + 1) = greatestField := by
    rw [← BitVec.toNat_inj, field]
    rfl
  have least : (@UnpackedFloat.unpackExponent Float.Model.Format.binary64 x.toBits.toBitVec =
      0#11) ↔ x.toBits.toNat / leastMantissa % (greatestField + 1) = 0 := by
    rw [← BitVec.toNat_inj, field]
    rfl
  have empty : (@UnpackedFloat.unpackMantissa Float.Model.Format.binary64 x.toBits.toBitVec =
      0#52) ↔ x.toBits.toNat % leastMantissa = 0 := by
    rw [← BitVec.toNat_inj, mantissa]
    rfl
  have exponent :
      ((x.toBits.toNat / leastMantissa % (greatestField + 1) : Nat) : Int) + leastExponent - 1 =
        ((x.toBits.toNat / leastMantissa % (greatestField + 1) : Nat) : Int) -
          ((Float.Model.Format.binary64.exponentBias : Int) + (52 : Nat)) := by
    rw [show Float.Model.Format.binary64.exponentBias = 1023 from rfl, leastExponent]
    omega
  show parts x = partsOf (UnpackedFloat.unpack Float.Model.Format.binary64 x.toBits.toBitVec)
  rw [partsOf_unpack]
  simp only [parts, greatest, least, empty, isNegative_ofBitVec, sign, mantissa, field, exponent,
    toNat_one_append, UInt64.toNat_toBitVec]

/-! ## Order -/

theorem unpack_zero : (0 : Float).toModel.unpack = .zero .positive := by
  have bits : (0 : Float).toBits = 0 := by decide +kernel
  show UnpackedFloat.unpack Float.Model.Format.binary64 (0 : Float).toBits.toBitVec = _
  rw [bits]
  rfl

theorem lt_zero_of_parts {x : Float} {mantissa : Nat} {exponent : Int}
    (read : parts x = .finite true mantissa exponent) (nonzero : mantissa ≠ 0) : x < 0 := by
  have compared : x.toModel.unpack.compare (.zero .positive) = some .lt := by
    rw [parts_eq_partsOf] at read
    cases unpacked : x.toModel.unpack with
    | notANumber =>
        rw [unpacked] at read
        cases read
    | infinity sign =>
        rw [unpacked] at read
        cases read
    | zero sign =>
        rw [unpacked] at read
        injection read with _ noMantissa _
        exact absurd noMantissa.symm nonzero
    | finite sign m e positive =>
        rw [unpacked] at read
        injection read with negative _ _
        cases sign with
        | negative => rfl
        | positive => cases negative
  show decide (x.toModel.unpack.lt (0 : Float).toModel.unpack = true) = true
  rw [unpack_zero, UnpackedFloat.lt, compared]
  rfl

theorem beq_self_iff (x : Float) : (x == x) = true ↔ parts x ≠ .notANumber := by
  show (x.toModel.unpack.beq x.toModel.unpack) = true ↔ _
  rw [parts_eq_partsOf]
  cases x.toModel.unpack with
  | notANumber => exact iff_of_false Bool.false_ne_true fun isNumber => isNumber rfl
  | infinity sign =>
      refine iff_of_true ?_ fun isNaN => by cases isNaN
      cases sign <;> rfl
  | zero sign => exact iff_of_true rfl fun isNaN => by cases isNaN
  | finite sign mantissa exponent positive =>
      have same : (compare exponent exponent).then (compare mantissa mantissa) = .eq := by simp
      refine iff_of_true ?_ fun isNaN => by cases isNaN
      cases sign with
      | negative =>
          show (some ((compare exponent exponent).then (compare mantissa mantissa)).swap ==
            some .eq) = true
          rw [same]
          rfl
      | positive =>
          show (some ((compare exponent exponent).then (compare mantissa mantissa)) ==
            some .eq) = true
          rw [same]
          rfl

end Rulebook.Number
