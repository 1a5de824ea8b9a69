import Mathlib.Tactic.SplitIfs
import Rulebook.Proofs.Number.Equality

/-!
# Numbers with given bits

Floating-point numbers with given bits. Bits that stand for a number are kept when they are made a
floating-point number, so a magnitude that is at most infinite is read back from its bits.
-/

namespace Rulebook.Number

open Float.Model (Format UnpackedFloat)
open Float.Model.UnpackedFloat (Sign packComponents unpackSign unpackExponent unpackMantissa)

variable (bits : BitVec 64)

private theorem toBitVec_ofBitVec (sign : BitVec 1) : (Sign.ofBitVec sign).toBitVec = sign := by
  revert sign
  decide

private theorem toNat_packComponents (sign : Sign) (exponent : BitVec 11) (mantissa : BitVec 52) :
    (packComponents Format.binary64 sign exponent mantissa).toNat =
      sign.toBitVec.toNat * signBit + exponent.toNat * leastMantissa + mantissa.toNat := by
  have joined : (packComponents Format.binary64 sign exponent mantissa).toNat =
      (sign.toBitVec ++ exponent ++ mantissa).toNat := rfl
  rw [joined, BitVec.toNat_append, ← Nat.shiftLeft_add_eq_or_of_lt mantissa.isLt,
    BitVec.toNat_append, ← Nat.shiftLeft_add_eq_or_of_lt exponent.isLt, Nat.shiftLeft_eq,
    Nat.shiftLeft_eq]
  simp only [signBit, leastMantissa]
  omega

theorem toNat_unpackSign_eq : (@unpackSign Format.binary64 bits).toNat = bits.toNat / signBit := by
  have bound := bits.isLt
  unfold unpackSign
  simp only [BitVec.extractLsb, BitVec.extractLsb', signBit, Nat.shiftRight_eq_div_pow,
    BitVec.toNat_cast, BitVec.toNat_ofNat]
  omega

/-- The fields of a number make up its bits. -/
theorem packComponents_fields :
    packComponents Format.binary64
      (Sign.ofBitVec (@unpackSign Format.binary64 bits))
      (@unpackExponent Format.binary64 bits) (@unpackMantissa Format.binary64 bits) = bits := by
  have bound := bits.isLt
  apply BitVec.eq_of_toNat_eq
  rw [toNat_packComponents, toBitVec_ofBitVec, toNat_unpackExponent, toNat_unpackMantissa,
    toNat_unpackSign_eq]
  simp only [signBit, leastMantissa, greatestField]
  omega

/-- A finite number is packed with the field of its exponent, unless it has fewer than 53 digits. -/
theorem pack_finite {sign : Sign} {mantissa : Nat} {exponent : Int} {positive : 0 < mantissa}
    {field : Nat} (isField : (exponent + 1075).toNat = field) (inRange : field < greatestField) :
    UnpackedFloat.pack Format.binary64 (.finite sign mantissa exponent positive) =
      if mantissa.log2 = 52 then
        packComponents Format.binary64 sign (BitVec.ofNat 11 field) (BitVec.ofNat 52 mantissa)
      else packComponents Format.binary64 sign 0#11 (BitVec.ofNat 52 mantissa) := by
  have biased : (exponent + (Format.binary64.exponentBias : Int) +
      (Format.binary64.mantissaBitsWithoutImplicit : Int)).toNat = field := by
    rw [← isField]
    congr 1
    show exponent + ((1023 : Nat) : Int) + ((52 : Nat) : Int) = exponent + 1075
    omega
  have digits : Format.binary64.mantissaBits = 53 := rfl
  unfold UnpackedFloat.pack
  dsimp only
  rw [biased, if_neg]
  · by_cases full : mantissa.log2 = 52
    · rw [digits, if_pos full, if_pos (by omega)]
    · rw [digits, if_neg full, if_neg (by omega)]
  · show ¬ 2 ^ 11 ≤ field + 1
    simp only [greatestField] at inRange
    omega

variable {sign : Sign} {mantissa : BitVec 52} {exponent : Int}

private theorem pack_least {positive : 0 < mantissa.toNat} (isLeast : exponent = leastExponent) :
    UnpackedFloat.pack Format.binary64 (.finite sign mantissa.toNat exponent positive) =
      packComponents Format.binary64 sign 0#11 mantissa := by
  have fewer : mantissa.toNat.log2 < 52 := (Nat.log2_lt (Nat.ne_of_gt positive)).2 mantissa.isLt
  have isField : (exponent + 1075).toNat = 1 := by
    rw [isLeast]
    rfl
  rw [pack_finite isField (by decide), if_neg (Nat.ne_of_lt fewer), BitVec.ofNat_toNat,
    BitVec.setWidth_eq]

private theorem pack_normal {field : BitVec 11} {positive : 0 < (1#1 ++ mantissa).toNat}
    (notGreatest : field ≠ -1#11) (isExponent : exponent = (field.toNat : Int) - 1075) :
    UnpackedFloat.pack Format.binary64 (.finite sign (1#1 ++ mantissa).toNat exponent positive) =
      packComponents Format.binary64 sign field mantissa := by
  have bound : mantissa.toNat < 2 ^ 52 := mantissa.isLt
  have value := toNat_one_append mantissa
  have full : (1#1 ++ mantissa).toNat.log2 = 52 := by
    rw [value]
    refine (Nat.log2_eq_iff (by simp [leastMantissa])).2 ?_
    simp only [leastMantissa]
    omega
  have kept : BitVec.ofNat 52 (1#1 ++ mantissa).toNat = mantissa := by
    apply BitVec.eq_of_toNat_eq
    rw [value, BitVec.toNat_ofNat]
    simp only [leastMantissa]
    omega
  have inRange : field.toNat < greatestField := by
    have below : field.toNat < 2 ^ 11 := field.isLt
    have notAll : field.toNat ≠ greatestField := fun isAll =>
      notGreatest (BitVec.eq_of_toNat_eq isAll)
    simp only [greatestField] at notAll ⊢
    omega
  have isField : (exponent + 1075).toNat = field.toNat := by
    omega
  rw [pack_finite isField inRange, if_pos full, kept, BitVec.ofNat_toNat, BitVec.setWidth_eq]

/-- Bits of a number are kept when they are unpacked and packed again. -/
theorem pack_unpack
    (isNumber : partsOf (UnpackedFloat.unpack Format.binary64 bits) ≠ .notANumber) :
    UnpackedFloat.pack Format.binary64 (UnpackedFloat.unpack Format.binary64 bits) = bits := by
  have fields := packComponents_fields bits
  unfold UnpackedFloat.unpack at isNumber ⊢
  dsimp only at isNumber ⊢
  by_cases greatest : @unpackExponent Format.binary64 bits = -1#11
  · rw [if_pos greatest] at isNumber ⊢
    by_cases empty : @unpackMantissa Format.binary64 bits = 0#52
    · rw [if_pos empty]
      rw [greatest, empty] at fields
      exact fields
    · rw [if_neg empty] at isNumber
      exact absurd rfl isNumber
  · rw [if_neg greatest]
    by_cases least : @unpackExponent Format.binary64 bits = 0#11
    · rw [if_pos least]
      rw [least] at fields
      by_cases empty : @unpackMantissa Format.binary64 bits = 0#52
      · rw [dif_pos empty]
        rw [empty] at fields
        exact fields
      · rw [dif_neg empty]
        refine (pack_least ?_).trans fields
        rw [least]
        rfl
    · rw [if_neg least]
      exact (pack_normal greatest rfl).trans fields

/-! ## Numbers with given bits -/

private theorem toBits_ofBits {bits : UInt64}
    (isNumber : bits.toNat / leastMantissa % (greatestField + 1) = greatestField →
      bits.toNat % leastMantissa = 0) : (Float.ofBits bits).toBits = bits := by
  have unpacked : partsOf (UnpackedFloat.unpack Format.binary64 bits.toBitVec) ≠ .notANumber := by
    have field := toNat_unpackExponent bits.toBitVec
    have fraction := toNat_unpackMantissa bits.toBitVec
    rw [partsOf_unpack]
    split
    · next greatest =>
        rw [greatest] at field
        have empty : @unpackMantissa Format.binary64 bits.toBitVec = 0#52 :=
          BitVec.eq_of_toNat_eq (fraction.trans (isNumber field.symm))
        rw [if_pos empty]
        exact fun isNaN => by cases isNaN
    · split <;> exact fun isNaN => by cases isNaN
  exact congrArg UInt64.ofBitVec (pack_unpack bits.toBitVec unpacked)

/-- A number that is made of its magnitude has the bits of it, behind the sign. -/
theorem toNat_toBits_ofMagnitude {negative : Bool} {magnitude : Nat}
    (bound : magnitude ≤ infinityBits) :
    (ofMagnitude negative magnitude).toBits.toNat =
      (if negative then signBit else 0) + magnitude := by
  have small : (if negative then magnitude + signBit else magnitude) < 2 ^ 64 := by
    simp only [infinityBits, signBit] at bound ⊢
    split <;> omega
  have kept : (UInt64.ofNat (if negative then magnitude + signBit else magnitude)).toNat =
      (if negative then magnitude + signBit else magnitude) :=
    UInt64.toNat_ofNat_of_lt' small
  rw [ofMagnitude, toBits_ofBits, kept]
  · split
    · exact Nat.add_comm _ _
    · exact (Nat.zero_add _).symm
  · rw [kept]
    simp only [infinityBits, signBit, leastMantissa, greatestField] at bound ⊢
    split <;> omega

/-- Whether a mantissa and an exponent are those of a finite number: a mantissa of 53 digits, or of
fewer at the least exponent. -/
structure IsMagnitude (mantissa : Nat) (exponent : Int) : Prop where
  least_le : leastExponent ≤ exponent
  le_greatest : exponent ≤ 971
  lt : mantissa < 2 * leastMantissa
  normal : exponent = leastExponent ∨ leastMantissa ≤ mantissa

def magnitudeBits (mantissa : Nat) (exponent : Int) : Nat :=
  (exponent - leastExponent).toNat * leastMantissa + mantissa

theorem IsMagnitude.bits_lt {mantissa : Nat} {exponent : Int}
    (isMagnitude : IsMagnitude mantissa exponent) :
    magnitudeBits mantissa exponent < infinityBits := by
  obtain ⟨least, greatest, below, -⟩ := isMagnitude
  simp only [magnitudeBits, leastExponent, leastMantissa, infinityBits] at *
  omega

section Parts

variable {x : Float} {negative : Bool} {mantissa : Nat} {exponent : Int}

/-- The parts of a finite number are within the bounds of the format. -/
theorem isMagnitude_of_parts (finite : parts x = .finite negative mantissa exponent) :
    IsMagnitude mantissa exponent := by
  simp only [parts] at finite
  split_ifs at finite
  · cases finite
    have bound := Nat.mod_lt x.toBits.toNat (show 0 < leastMantissa by decide)
    exact ⟨Int.le_refl _, by decide, by omega, .inl rfl⟩
  · cases finite
    have bound := Nat.mod_lt x.toBits.toNat (show 0 < leastMantissa by decide)
    have field := Nat.mod_lt (x.toBits.toNat / leastMantissa) (show 0 < greatestField + 1 by decide)
    have least : leastExponent = -1074 := rfl
    have greatest : greatestField = 2047 := rfl
    exact ⟨by omega, by omega, by omega, .inr (by omega)⟩

/-- A finite number is read back from the bits of its magnitude. -/
theorem ofMagnitude_of_parts (finite : parts x = .finite negative mantissa exponent) :
    ofMagnitude negative (magnitudeBits mantissa exponent) = x := by
  have isNumber : parts x ≠ .notANumber := by
    rw [finite]
    exact fun isNaN => by cases isNaN
  have sameBits := bitsOf_parts isNumber
  rw [finite, bitsOf] at sameBits
  apply eq_of_toBits_eq
  apply BitVec.eq_of_toNat_eq
  exact (toNat_toBits_ofMagnitude (Nat.le_of_lt (isMagnitude_of_parts finite).bits_lt)).trans sameBits

end Parts

/-- A magnitude has no sign. -/
theorem parts_ofMagnitude {magnitude : Nat} (bound : magnitude ≤ infinityBits) :
    parts (ofMagnitude false magnitude) = .infinite false ∨
      ∃ mantissa exponent, parts (ofMagnitude false magnitude) = .finite false mantissa exponent := by
  have bits : (ofMagnitude false magnitude).toBits.toNat = magnitude :=
    (toNat_toBits_ofMagnitude bound).trans (Nat.zero_add _)
  have positive : decide (signBit ≤ magnitude) = false := by
    apply decide_eq_false
    simp only [infinityBits, signBit] at bound ⊢
    omega
  simp only [parts, bits, positive]
  split_ifs with greatest empty least
  · exact .inl rfl
  · refine absurd ?_ empty
    simp only [infinityBits, leastMantissa, greatestField] at bound greatest ⊢
    omega
  · exact .inr ⟨_, _, rfl⟩
  · exact .inr ⟨_, _, rfl⟩

end Rulebook.Number
