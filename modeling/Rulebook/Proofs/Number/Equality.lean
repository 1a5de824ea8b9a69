import Rulebook.Proofs.Number.Unpacked

/-!
# Equality of numbers

Equality of floating-point numbers. Two numbers match if they are the same, or both zeros of whatever
signs, and they are equal if they match and are numbers at all. Arithmetic and comparisons do not
tell matching numbers apart, as long as nothing is divided by a zero.
-/

namespace Rulebook.Number

open Float.Model (Format UnpackedFloat)
open Float.Model.UnpackedFloat (Sign)

/-! ## Numbers and their parts -/

def bitsOf : Parts → Nat
  | .notANumber => 0
  | .infinite negative => (if negative then signBit else 0) + infinityBits
  | .finite negative mantissa exponent =>
    (if negative then signBit else 0) +
      ((exponent - leastExponent).toNat * leastMantissa + mantissa)

theorem bitsOf_parts {x : Float} (isNumber : parts x ≠ .notANumber) :
    bitsOf (parts x) = x.toBits.toNat := by
  have bound : x.toBits.toNat < 2 * signBit := x.toBits.toNat_lt
  simp only [parts] at isNumber ⊢
  generalize x.toBits.toNat = bits at bound isNumber ⊢
  generalize isField : bits / leastMantissa % (greatestField + 1) = field at isNumber ⊢
  generalize isFraction : bits % leastMantissa = fraction at isNumber ⊢
  have sign : (if decide (signBit ≤ bits) = true then signBit else 0) =
      bits / signBit * signBit := by
    by_cases negative : signBit ≤ bits
    · rw [if_pos (decide_eq_true negative)]
      simp only [signBit] at bound negative ⊢
      omega
    · rw [if_neg (by rw [decide_eq_true_eq]; exact negative)]
      simp only [signBit] at bound negative ⊢
      omega
  have digits : bits / signBit * signBit + (field * leastMantissa + fraction) = bits := by
    simp only [signBit, leastMantissa, greatestField] at bound isField isFraction ⊢
    omega
  by_cases greatest : field = greatestField
  · by_cases empty : fraction = 0
    · rw [greatest, empty, Nat.add_zero] at digits
      rw [if_pos greatest, if_pos empty, bitsOf, sign]
      exact digits
    · rw [if_pos greatest, if_neg empty] at isNumber
      exact absurd rfl isNumber
  · rw [if_neg greatest]
    by_cases least : field = 0
    · rw [least] at digits
      rw [if_pos least, bitsOf, sign, Int.sub_self]
      exact digits
    · have exponent : ((field : Int) + leastExponent - 1 - leastExponent).toNat = field - 1 := by
        omega
      have leading : (field - 1) * leastMantissa + leastMantissa = field * leastMantissa := by
        rw [← Nat.succ_mul]
        congr 1
        omega
      rw [if_neg least, bitsOf, sign, exponent, ← Nat.add_assoc _ leastMantissa, leading, digits]

/-- What is not a number has but one form. -/
theorem toBits_of_notANumber {x : Float} (isNaN : parts x = .notANumber) :
    x.toBits.toBitVec = UnpackedFloat.packedNaN Format.binary64 := by
  rw [parts_eq_partsOf] at isNaN
  have read : partsOf (UnpackedFloat.unpack Format.binary64 x.toBits.toBitVec) = .notANumber :=
    isNaN
  rw [partsOf_unpack] at read
  split at read
  · next greatest =>
      split at read
      · cases read
      · next notEmpty => exact x.toModel.valid.eq_packedNaN greatest notEmpty
  · split at read <;> cases read

theorem eq_of_toBits_eq {x y : Float} (same : x.toBits.toBitVec = y.toBits.toBitVec) : x = y := by
  obtain ⟨⟨bits, valid⟩⟩ := x
  obtain ⟨⟨otherBits, validOther⟩⟩ := y
  have sameBits : bits = otherBits := UInt64.toBitVec_inj.1 same
  subst sameBits
  rfl

/-- A number is determined by its parts. -/
theorem eq_of_parts_eq {x y : Float} (same : parts x = parts y) : x = y := by
  apply eq_of_toBits_eq
  by_cases isNaN : parts x = .notANumber
  · rw [toBits_of_notANumber isNaN, toBits_of_notANumber (same ▸ isNaN)]
  · apply BitVec.eq_of_toNat_eq
    exact (bitsOf_parts isNaN).symm.trans (same ▸ bitsOf_parts (same ▸ isNaN))

/-! ## Numbers that match -/

/-- `MatchUnpacked u v` means that two unpacked numbers are the same, or both zeros. -/
inductive MatchUnpacked : UnpackedFloat → UnpackedFloat → Prop
  | refl (u : UnpackedFloat) :
      MatchUnpacked u u
  | zero (sign otherSign : Sign) :
      MatchUnpacked (.zero sign) (.zero otherSign)

namespace MatchUnpacked

variable {spec : Format} {u v w u' v' : UnpackedFloat} {sign otherSign : Sign}

theorem symm (matched : MatchUnpacked u v) : MatchUnpacked v u := by
  cases matched with
  | refl => exact .refl u
  | zero sign otherSign => exact .zero otherSign sign

theorem trans (matched : MatchUnpacked u v) (next : MatchUnpacked v w) : MatchUnpacked u w := by
  cases matched with
  | refl => exact next
  | zero sign otherSign =>
      cases next with
      | refl => exact .zero sign otherSign
      | zero _ lastSign => exact .zero sign lastSign

/-- What matches is equal, or is two zeros. -/
theorem eq_or_zeros (matched : MatchUnpacked u v) :
    u = v ∨ ∃ sign otherSign, u = .zero sign ∧ v = .zero otherSign := by
  cases matched with
  | refl => exact .inl rfl
  | zero sign otherSign => exact .inr ⟨sign, otherSign, rfl, rfl⟩

/-! ### Zeros as operands -/

theorem add_zero (u : UnpackedFloat) (sign : Sign) :
    MatchUnpacked (UnpackedFloat.add spec u (.zero sign)) u := by
  cases u with
  | zero other =>
      cases sign <;> cases other <;> apply zero
  | _ => exact .refl _

theorem zero_add (u : UnpackedFloat) (sign : Sign) :
    MatchUnpacked (UnpackedFloat.add spec (.zero sign) u) u := by
  cases u with
  | zero other =>
      cases sign <;> cases other <;> apply zero
  | _ => exact .refl _

theorem sub_zero (u : UnpackedFloat) (sign : Sign) :
    MatchUnpacked (UnpackedFloat.sub spec u (.zero sign)) u := by
  cases u with
  | zero other =>
      cases sign <;> cases other <;> apply zero
  | _ => exact .refl _

theorem zero_sub (u : UnpackedFloat) (sign : Sign) :
    MatchUnpacked (UnpackedFloat.sub spec (.zero sign) u) u.neg := by
  cases u with
  | zero other =>
      cases sign <;> cases other <;> apply zero
  | _ => exact .refl _

private theorem mul_zero (u : UnpackedFloat) (sign otherSign : Sign) :
    MatchUnpacked (UnpackedFloat.mul spec u (.zero sign))
      (UnpackedFloat.mul spec u (.zero otherSign)) := by
  cases u with
  | zero | finite => apply zero
  | _ => exact .refl _

theorem zero_mul (u : UnpackedFloat) (sign otherSign : Sign) :
    MatchUnpacked (UnpackedFloat.mul spec (.zero sign) u)
      (UnpackedFloat.mul spec (.zero otherSign) u) := by
  cases u with
  | zero | finite => apply zero
  | _ => exact .refl _

theorem zero_div (u : UnpackedFloat) (sign otherSign : Sign) :
    MatchUnpacked (UnpackedFloat.div spec (.zero sign) u)
      (UnpackedFloat.div spec (.zero otherSign) u) := by
  cases u with
  | infinity | finite => apply zero
  | _ => exact .refl _

private theorem compare_zero (u : UnpackedFloat) (sign otherSign : Sign) :
    u.compare (.zero sign) = u.compare (.zero otherSign) := by
  cases u with
  | infinity other | finite other => cases other <;> rfl
  | _ => rfl

private theorem zero_compare (u : UnpackedFloat) (sign otherSign : Sign) :
    UnpackedFloat.compare (.zero sign) u = UnpackedFloat.compare (.zero otherSign) u := by
  cases u with
  | infinity other | finite other => cases other <;> rfl
  | _ => rfl

/-! ### Operations -/

theorem neg (matched : MatchUnpacked u v) : MatchUnpacked u.neg v.neg := by
  cases matched with
  | refl => exact .refl _
  | zero => apply zero

/-- An operation respects matching if the signs of zeros do not matter in either operand. -/
theorem operate {op : UnpackedFloat → UnpackedFloat → UnpackedFloat}
    (zeroLeft : ∀ u sign otherSign, MatchUnpacked (op (.zero sign) u) (op (.zero otherSign) u))
    (zeroRight : ∀ u sign otherSign, MatchUnpacked (op u (.zero sign)) (op u (.zero otherSign)))
    (left : MatchUnpacked u u') (right : MatchUnpacked v v') :
    MatchUnpacked (op u v) (op u' v') := by
  have sameLeft : MatchUnpacked (op u v) (op u' v) := by
    cases left with
    | refl => exact .refl _
    | zero sign otherSign => exact zeroLeft v sign otherSign
  apply sameLeft.trans
  cases right with
  | refl => exact .refl _
  | zero sign otherSign => exact zeroRight u' sign otherSign

theorem add (left : MatchUnpacked u u') (right : MatchUnpacked v v') :
    MatchUnpacked (UnpackedFloat.add spec u v) (UnpackedFloat.add spec u' v') :=
  operate (fun u sign otherSign => (zero_add u sign).trans (zero_add u otherSign).symm)
    (fun u sign otherSign => (add_zero u sign).trans (add_zero u otherSign).symm) left right

theorem sub (left : MatchUnpacked u u') (right : MatchUnpacked v v') :
    MatchUnpacked (UnpackedFloat.sub spec u v) (UnpackedFloat.sub spec u' v') :=
  operate (fun u sign otherSign => (zero_sub u sign).trans (zero_sub u otherSign).symm)
    (fun u sign otherSign => (sub_zero u sign).trans (sub_zero u otherSign).symm) left right

theorem mul (left : MatchUnpacked u u') (right : MatchUnpacked v v') :
    MatchUnpacked (UnpackedFloat.mul spec u v) (UnpackedFloat.mul spec u' v') :=
  operate zero_mul mul_zero left right

/-- A quotient, where the divisor is no zero. -/
theorem div (left : MatchUnpacked u u') (right : MatchUnpacked v v')
    (nonzero : ¬ MatchUnpacked v (.zero .positive)) :
    MatchUnpacked (UnpackedFloat.div spec u v) (UnpackedFloat.div spec u' v') := by
  cases right with
  | zero sign => exact absurd (.zero sign .positive) nonzero
  | refl =>
      cases left with
      | refl => exact .refl _
      | zero sign otherSign => exact zero_div v sign otherSign

theorem compare_eq (left : MatchUnpacked u u') (right : MatchUnpacked v v') :
    u.compare v = u'.compare v' := by
  have sameLeft : u.compare v = u'.compare v := by
    cases left with
    | refl => rfl
    | zero sign otherSign => exact zero_compare v sign otherSign
  rw [sameLeft]
  cases right with
  | refl => rfl
  | zero sign otherSign => exact compare_zero u' sign otherSign

/-! ### Equality -/

/-- Numbers that compare as equal match. -/
theorem of_compare_eq (compared : u.compare v = some .eq) : MatchUnpacked u v := by
  cases u with
  | notANumber => cases compared
  | infinity sign =>
      cases v with
      | infinity other => cases sign <;> cases other <;> first | exact .refl _ | cases compared
      | _ => cases sign <;> cases compared
  | zero sign =>
      cases v with
      | zero other => exact .zero sign other
      | notANumber => cases compared
      | infinity other | finite other => cases other <;> cases compared
  | finite sign mantissa exponent positive =>
      cases v with
      | notANumber => cases sign <;> cases compared
      | zero other => cases sign <;> cases compared
      | infinity other => cases sign <;> cases other <;> cases compared
      | finite other otherMantissa otherExponent otherPositive =>
          have equal (inOrder : (compare exponent otherExponent).then
              (compare mantissa otherMantissa) = .eq) :
              exponent = otherExponent ∧ mantissa = otherMantissa := by
            rw [Ordering.then_eq_eq, Std.compare_eq_iff_eq, Std.compare_eq_iff_eq] at inOrder
            exact inOrder
          cases sign <;> cases other
          · have inOrder := Option.some.inj compared
            rw [Ordering.swap_eq_eq] at inOrder
            obtain ⟨rfl, rfl⟩ := equal inOrder
            exact .refl _
          · cases compared
          · cases compared
          · obtain ⟨rfl, rfl⟩ := equal (Option.some.inj compared)
            exact .refl _

end MatchUnpacked

/-- `Matches x y` means that two numbers are the same, or both zeros. -/
def Matches (x y : Float) : Prop :=
  MatchUnpacked x.toModel.unpack y.toModel.unpack

/-- The two views of a number agree on what is none. -/
theorem parts_eq_notANumber_iff {x : Float} :
    parts x = .notANumber ↔ x.toModel.unpack = .notANumber := by
  rw [parts_eq_partsOf]
  cases x.toModel.unpack with
  | notANumber => exact iff_of_true rfl rfl
  | _ => exact iff_of_false (by intro isNaN; cases isNaN) (by intro isNaN; cases isNaN)

theorem unpack_pack_zero (sign : Sign) :
    (Float.Model.pack (.zero sign)).unpack = .zero sign := by
  cases sign <;> rfl

theorem MatchUnpacked.pack {u v : UnpackedFloat} (matched : MatchUnpacked u v) :
    MatchUnpacked (Float.Model.pack u).unpack (Float.Model.pack v).unpack := by
  cases matched with
  | refl => exact .refl _
  | zero sign otherSign =>
      rw [unpack_pack_zero, unpack_pack_zero]
      exact .zero sign otherSign

namespace Matches

variable {x y z x' y' : Float}

theorem refl (x : Float) : Matches x x :=
  MatchUnpacked.refl _

theorem symm (matched : Matches x y) : Matches y x :=
  MatchUnpacked.symm matched

theorem trans (matched : Matches x y) (next : Matches y z) : Matches x z :=
  MatchUnpacked.trans matched next

/-- Where one number is none, the other is none as well. -/
theorem notANumber (matched : Matches x y) (isNaN : parts x = .notANumber) :
    parts y = .notANumber := by
  rw [parts_eq_notANumber_iff] at isNaN ⊢
  rcases matched.eq_or_zeros with same | ⟨sign, _, isZero, _⟩
  · exact same.symm.trans isNaN
  · rw [isZero] at isNaN
    cases isNaN

theorem neg (matched : Matches x y) : Matches (-x) (-y) :=
  MatchUnpacked.pack (MatchUnpacked.neg matched)

theorem add (left : Matches x x') (right : Matches y y') : Matches (x + y) (x' + y') :=
  MatchUnpacked.pack (MatchUnpacked.add left right)

theorem sub (left : Matches x x') (right : Matches y y') : Matches (x - y) (x' - y') :=
  MatchUnpacked.pack (MatchUnpacked.sub left right)

theorem mul (left : Matches x x') (right : Matches y y') : Matches (x * y) (x' * y') :=
  MatchUnpacked.pack (MatchUnpacked.mul left right)

theorem lt_iff (left : Matches x x') (right : Matches y y') : x < y ↔ x' < y' := by
  show decide (x.toModel.unpack.lt y.toModel.unpack = true) = true ↔
    decide (x'.toModel.unpack.lt y'.toModel.unpack = true) = true
  rw [UnpackedFloat.lt, UnpackedFloat.lt, MatchUnpacked.compare_eq left right]

theorem le_iff (left : Matches x x') (right : Matches y y') : x ≤ y ↔ x' ≤ y' := by
  show decide (x.toModel.unpack.le y.toModel.unpack = true) = true ↔
    decide (x'.toModel.unpack.le y'.toModel.unpack = true) = true
  rw [UnpackedFloat.le, UnpackedFloat.le, MatchUnpacked.compare_eq left right]

theorem beq_eq (left : Matches x x') (right : Matches y y') : (x == y) = (x' == y') := by
  show (x.toModel.unpack.compare y.toModel.unpack == some .eq) =
    (x'.toModel.unpack.compare y'.toModel.unpack == some .eq)
  rw [MatchUnpacked.compare_eq left right]

end Matches

/-- Equal numbers are those that match, apart from what is not a number. -/
theorem beq_iff {x y : Float} : (x == y) = true ↔ Matches x y ∧ parts x ≠ .notANumber := by
  constructor
  · intro equal
    have compared : x.toModel.unpack.compare y.toModel.unpack = some .eq := eq_of_beq equal
    refine ⟨.of_compare_eq compared, fun isNaN => ?_⟩
    rw [parts_eq_notANumber_iff.1 isNaN] at compared
    cases compared
  · rintro ⟨matched, isNumber⟩
    rw [(Matches.refl x).beq_eq matched.symm]
    exact (beq_self_iff x).2 isNumber

theorem beq_symm {x y : Float} (equal : (x == y) = true) : (y == x) = true := by
  obtain ⟨matched, isNumber⟩ := beq_iff.1 equal
  exact beq_iff.2 ⟨matched.symm, fun isNaN => isNumber (matched.symm.notANumber isNaN)⟩

/-- Equality of numbers is transitive, though not reflexive. -/
theorem beq_trans {x y z : Float} (equal : (x == y) = true) (next : (y == z) = true) :
    (x == z) = true := by
  obtain ⟨matched, isNumber⟩ := beq_iff.1 equal
  exact beq_iff.2 ⟨matched.trans (beq_iff.1 next).1, isNumber⟩

/-- A number is a zero just if it equals the literal. -/
theorem beq_zero_iff {y : Float} :
    (y == 0) = true ↔ MatchUnpacked y.toModel.unpack (.zero .positive) := by
  rw [beq_iff, Matches, unpack_zero]
  refine ⟨And.left, fun matched => ⟨matched, fun isNaN => ?_⟩⟩
  rw [parts_eq_notANumber_iff.1 isNaN] at matched
  cases matched

/-- Division keeps matching apart from division by zero, where the sign of the zero shows. -/
theorem Matches.div {x y x' y' : Float} (left : Matches x x') (right : Matches y y')
    (nonzero : (y == 0) = false) : Matches (x / y) (x' / y') := by
  have notZero : ¬ MatchUnpacked y.toModel.unpack (.zero .positive) := by
    rw [← beq_zero_iff, nonzero]
    exact Bool.false_ne_true
  exact MatchUnpacked.pack (MatchUnpacked.div left right notZero)

/-! ## Whole numbers -/

private theorem scaled_zero (base : Nat) (exponent : Int) (denominator : Nat) :
    (scaled base exponent 0 denominator).1 = 0 := by
  rw [scaled]
  split
  · exact Nat.zero_mul _
  · rfl

private theorem whole?_of_parts_zero {x : Float} {negative : Bool} {exponent : Int}
    (read : parts x = .finite negative 0 exponent) : whole? x = some 0 := by
  rw [whole?, read]
  show (if (quotient 0 exponent).1 % (quotient 0 exponent).2 = 0 then
    some (withSign negative ((quotient 0 exponent).1 / (quotient 0 exponent).2)) else none) = _
  rw [quotient, scaled_zero, Nat.zero_mod, Nat.zero_div, if_pos rfl]
  cases negative <;> rfl

theorem whole?_of_unpack_zero {x : Float} {sign : Sign} (isZero : x.toModel.unpack = .zero sign) :
    whole? x = some 0 := by
  have read : parts x = .finite (isNegative sign) 0 leastExponent := by
    rw [parts_eq_partsOf, isZero]
    rfl
  exact whole?_of_parts_zero read

/-- Numbers that match are the same, or both the whole number zero. -/
theorem Matches.eq_or_whole {x y : Float} (matched : Matches x y) :
    x = y ∨ whole? x = some 0 ∧ whole? y = some 0 := by
  rcases matched.eq_or_zeros with same | ⟨sign, otherSign, isZero, isOtherZero⟩
  · left
    apply eq_of_parts_eq
    rw [parts_eq_partsOf, parts_eq_partsOf, same]
  · exact .inr ⟨whole?_of_unpack_zero isZero, whole?_of_unpack_zero isOtherZero⟩

end Rulebook.Number
