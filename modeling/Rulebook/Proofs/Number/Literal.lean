import Mathlib.Algebra.Group.Nat.Defs
import Rulebook.Number.Display
import Rulebook.Proofs.Number.Unpacked
import Rulebook.Proofs.Token.Spelling

/-!
# Literals

The literal of a finite number is a written number, with a minus before it only where the number is
negative. Its digits are those of the Latin script, and read back they have the value that they
were written for.
-/

namespace Rulebook

open Text (isDigit latinDigit digitsValue)

/-! ## Digits -/

theorem digitValue?_latinDigit (n : Nat) : Text.digitValue? (latinDigit n) = some (n % 10) := by
  have small : ∀ d : Fin 10, Text.digitValue? (Char.ofNat (48 + d.val)) = some d.val := by
    decide
  exact small ⟨n % 10, Nat.mod_lt n (by decide)⟩

theorem isDigit_latinDigit (n : Nat) : isDigit (latinDigit n) = true := by
  rw [isDigit, digitValue?_latinDigit, Option.isSome_some]

namespace Number

theorem digits_ne_nil (n : Nat) : digits n ≠ [] := by
  rw [digits]
  split <;> simp

theorem isDigit_of_mem_digits {n : Nat} {c : Char} (member : c ∈ digits n) : isDigit c = true := by
  induction n using digits.induct with
  | case1 n small =>
      rw [digits, if_pos small, List.mem_singleton] at member
      exact member ▸ isDigit_latinDigit n
  | case2 n notSmall inductionHypothesis =>
      rw [digits, if_neg notSmall, List.mem_append, List.mem_singleton] at member
      rcases member with earlier | rfl
      · exact inductionHypothesis earlier
      · exact isDigit_latinDigit n

/-- The digits of a natural number have its value. -/
theorem digitsValue_digits (n : Nat) : digitsValue (digits n) = n := by
  induction n using digits.induct with
  | case1 n small =>
      rw [digits, if_pos small, digitsValue]
      simp [digitValue?_latinDigit, Nat.mod_eq_of_lt small]
  | case2 n notSmall inductionHypothesis =>
      rw [digitsValue] at inductionHypothesis
      rw [digits, if_neg notSmall, digitsValue, List.foldl_append, inductionHypothesis]
      simp only [List.foldl_cons, List.foldl_nil, digitValue?_latinDigit, Option.getD_some]
      omega

theorem toDigits_eq_digits (n : Nat) : Nat.toDigits 10 n = digits n := by
  have digitChar (d : Nat) (small : d < 10) : Nat.digitChar d = latinDigit d := by
    have checked : ∀ d : Fin 10, Nat.digitChar d.val = latinDigit d.val := by decide
    exact checked ⟨d, small⟩
  induction n using digits.induct with
  | case1 n small =>
      rw [digits, if_pos small, Nat.toDigits_of_lt_base small, digitChar n small]
  | case2 n notSmall inductionHypothesis =>
      rw [digits, if_neg notSmall, Nat.toDigits_of_base_le (by decide) (by omega),
        inductionHypothesis, digitChar (n % 10) (Nat.mod_lt n (by decide))]
      simp [latinDigit]

/-- Digits are written in the Latin script. -/
theorem isLatin_of_mem_digits {n : Nat} {c : Char} (member : c ∈ digits n) : c.isDigit = true := by
  rw [← toDigits_eq_digits] at member
  exact Nat.isDigit_of_mem_toDigits (by decide) (by decide) member

/-- The number of digits in terms of a power of ten. -/
theorem length_digits_le_iff {n bound : Nat} (positive : 0 < bound) :
    (digits n).length ≤ bound ↔ n < 10 ^ bound := by
  rw [← toDigits_eq_digits]
  exact Nat.length_toDigits_le_iff (by decide) positive

/-! ## Written numbers -/

def IsNumeral (cs : List Char) : Prop :=
  ∃ numeral : Numeral, numeral.WellFormed ∧ numeral.chars = cs

private theorem isNumeral_whole {whole : List Char} (nonempty : whole ≠ [])
    (wholeDigits : ∀ c ∈ whole, isDigit c = true) : IsNumeral whole :=
  ⟨⟨whole, none⟩, ⟨nonempty, wholeDigits, by simp, by simp⟩, rfl⟩

theorem isNumeral_fraction {whole fraction : List Char} (nonempty : whole ≠ [])
    (wholeDigits : ∀ c ∈ whole, isDigit c = true) (fractionNonempty : fraction ≠ [])
    (fractionDigits : ∀ c ∈ fraction, isDigit c = true) :
    IsNumeral (whole ++ '.' :: fraction) :=
  ⟨⟨whole, some fraction⟩, ⟨nonempty, wholeDigits, by simpa, by simpa⟩, rfl⟩

theorem isNumeral_digits (n : Nat) : IsNumeral (digits n) :=
  isNumeral_whole (digits_ne_nil n) fun _ => isDigit_of_mem_digits

theorem isDigit_of_mem_zeros {n : Nat} {c : Char} (member : c ∈ List.replicate n '0') :
    isDigit c = true := by
  rw [List.eq_of_mem_replicate member]
  exact isDigit_latinDigit 0

private theorem isDigit_of_mem_padded {width n : Nat} {c : Char} (member : c ∈ padded width n) :
    isDigit c = true := by
  rw [padded, List.mem_append] at member
  rcases member with zero | digit
  · exact isDigit_of_mem_zeros zero
  · exact isDigit_of_mem_digits digit

theorem isLatin_of_mem_padded {width n : Nat} {c : Char} (member : c ∈ padded width n) :
    c.isDigit = true := by
  rw [padded, List.mem_append] at member
  rcases member with zero | digit
  · rw [List.eq_of_mem_replicate zero]
    decide
  · exact isLatin_of_mem_digits digit

theorem isNumeral_positional (decimal : Decimal) : IsNumeral (positional decimal) := by
  have written : ∀ c ∈ digits decimal.significand, isDigit c = true :=
    fun _ => isDigit_of_mem_digits
  have nonempty := digits_ne_nil decimal.significand
  have zero : ∀ c ∈ ['0'], isDigit c = true := fun _ member =>
    isDigit_of_mem_zeros (n := 1) member
  simp only [positional]
  split
  · refine isNumeral_fraction (List.cons_ne_nil '0' []) zero (by simp [nonempty]) ?_
    intro c member
    rcases List.mem_append.1 member with padding | digit
    · exact isDigit_of_mem_zeros padding
    · exact written c digit
  · next after =>
      split
      · rw [List.append_assoc, ← List.append_assoc]
        refine isNumeral_fraction (by simp [nonempty]) ?_ (List.cons_ne_nil '0' []) zero
        intro c member
        rcases List.mem_append.1 member with digit | padding
        · exact written c digit
        · exact isDigit_of_mem_zeros padding
      · next shorter =>
          refine isNumeral_fraction ?_ (fun c member => written c (List.mem_of_mem_take member))
            ?_ (fun c member => written c (List.mem_of_mem_drop member))
          · simp only [ne_eq, List.take_eq_nil_iff, nonempty, or_false]
            omega
          · simp only [ne_eq, List.drop_eq_nil_iff]
            exact shorter

/-- A number with a fixed number of places is written like a number of the language. -/
theorem isNumeral_fixedPlaces (mantissa : Nat) (exponent : Int) :
    IsNumeral (fixedPlaces mantissa exponent) := by
  simp only [fixedPlaces]
  split
  · rw [List.append_nil]
    exact isNumeral_digits _
  · next kept =>
      refine isNumeral_fraction (digits_ne_nil _) (fun _ => isDigit_of_mem_digits) ?_ ?_
      · intro none
        exact kept (by rw [none]; rfl)
      · intro c member
        have inside := List.dropWhile_sublist _ |>.mem (List.mem_reverse.1 member)
        exact isDigit_of_mem_padded (List.mem_reverse.1 inside)

/-! ## Literals -/

variable {x : Float} {negative : Bool} {mantissa : Nat} {exponent : Int}

theorem whole?_of_zero (finite : parts x = .finite negative 0 exponent) : whole? x = some 0 := by
  have none : (quotient 0 exponent).1 = 0 := by
    rw [quotient, scaled]
    split <;> simp
  simp only [whole?, finite, none, Nat.zero_mod, Nat.zero_div, if_true]
  cases negative <;> rfl

private theorem negative_of_whole?_lt_zero {whole : Int}
    (finite : parts x = .finite negative mantissa exponent) (read : whole? x = some whole)
    (below : whole < 0) : negative = true := by
  simp only [whole?, finite, Option.ite_none_right_eq_some, Option.some.injEq] at read
  obtain ⟨_, rfl⟩ := read
  cases negative with
  | true => rfl
  | false => exact absurd below (Int.not_lt.2 (Int.natCast_nonneg _))

/-- The literal of a finite number is a written number, behind a minus if the number is
negative. -/
theorem exists_numeral_literal (finite : parts x = .finite negative mantissa exponent) :
    ∃ minus cs, IsNumeral cs ∧ (literal x).toList = signed minus cs ∧ (minus = true → x < 0) := by
  by_cases zero : mantissa = 0
  · subst zero
    refine ⟨false, digits 0, isNumeral_digits 0, ?_, by simp⟩
    simp [literal, finite, whole?_of_zero finite, wholeBound, integerText, signed]
  · have below (minus : negative = true) : x < 0 := lt_zero_of_parts (minus ▸ finite) zero
    simp only [literal, finite, String.toList_ofList]
    cases read : whole? x with
    | some whole =>
        simp only
        split
        · refine ⟨decide (whole < 0), digits whole.natAbs, isNumeral_digits _, ?_, ?_⟩
          · simp [integerText, signed]
          · intro minus
            exact below (negative_of_whole?_lt_zero finite read (of_decide_eq_true minus))
        · exact ⟨negative, _, isNumeral_fixedPlaces mantissa exponent, rfl, below⟩
    | none =>
        simp only
        split
        · exact ⟨negative, _, isNumeral_positional _, rfl, below⟩
        · exact ⟨negative, _, isNumeral_fixedPlaces mantissa exponent, rfl, below⟩

end Number

end Rulebook
