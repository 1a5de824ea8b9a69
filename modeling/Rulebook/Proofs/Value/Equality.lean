import Mathlib.Data.List.Nodup
import Mathlib.Data.List.Perm.Subperm
import Rulebook.Proofs.Number.Equality
import Rulebook.Proofs.Value.WellFormed

/-!
# Equality of well-formed values

Structural equality of values in which no object has two fields of one name. Objects are equal if they
have equal fields under the same names, in whatever order; from this it follows that equality is
symmetric and transitive. Values match if they are equal, or both no numbers although they are of that
kind; they are then equal to the same values, and their parts match.
-/

namespace Rulebook.Value

variable {value other third : Value} {fields others : List (String × Value)}

/-- Equality of values as a relation. -/
def Equal (value other : Value) : Prop :=
  value.same other = true

/-! ## Values that match -/

/-- `Matches value other` means that two values are equal, or both of them are of the kind of numbers
without being one. -/
inductive Matches : Value → Value → Prop
  | equal {value other : Value} :
      value.same other = true →
      Matches value other
  | notANumber {x y : Float} :
      Number.parts x = .notANumber →
      Number.parts y = .notANumber →
      Matches (number x) (number y)

/-- The forms of two values that match. -/
inductive MatchCases : Value → Value → Prop
  | number {x y : Float} :
      Number.Matches x y →
      MatchCases (number x) (number y)
  | string (text : String) : MatchCases (string text) (string text)
  | bool (holds : Bool) : MatchCases (bool holds) (bool holds)
  | object {fields others : List (String × Value)} :
      Equal (object fields) (object others) →
      MatchCases (object fields) (object others)
  | array {items others : List Value} :
      Equal (array items) (array others) →
      MatchCases (array items) (array others)
  | null : MatchCases null null

theorem matches_number_iff {x y : Float} : Matches (number x) (number y) ↔ Number.Matches x y := by
  constructor
  · intro matched
    cases matched with
    | equal equal => exact (Number.beq_iff.1 equal).1
    | notANumber isNaN isOtherNaN =>
        rw [Number.eq_of_parts_eq (isNaN.trans isOtherNaN.symm)]
        exact .refl y
  · intro matched
    by_cases isNaN : Number.parts x = .notANumber
    · exact .notANumber isNaN (matched.notANumber isNaN)
    · exact .equal (Number.beq_iff.2 ⟨matched, isNaN⟩)

theorem Matches.matchCases (matched : Matches value other) : MatchCases value other := by
  cases matched with
  | notANumber isNaN isOtherNaN =>
      exact .number (matches_number_iff.1 (.notANumber isNaN isOtherNaN))
  | equal equal =>
      cases value <;> cases other <;> try cases equal
      · exact .number (Number.beq_iff.1 equal).1
      · obtain rfl := eq_of_beq equal
        exact .string _
      · obtain rfl := eq_of_beq equal
        exact .bool _
      · exact .object equal
      · exact .array equal
      · exact .null

theorem Equal.matchCases (equal : Equal value other) : MatchCases value other :=
  Matches.matchCases (.equal equal)

theorem Matches.kind_eq (matched : Matches value other) : value.kind = other.kind := by
  cases matched.matchCases <;> rfl

/-! ## Arrays and objects -/

theorem eq_none_iff_of_rel {found? other? : Option Value} (related : Option.Rel Equal found? other?) :
    found? = none ↔ other? = none := by
  cases related <;> simp

/-- Arrays are equal if they have at each place equal elements, or none. -/
theorem equal_array_iff {items others : List Value} :
    Equal (array items) (array others) ↔
      ∀ index : Nat, Option.Rel Equal items[index]? others[index]? := by
  rw [Equal, same]
  induction items generalizing others with
  | nil =>
      cases others with
      | nil => exact iff_of_true rfl fun index => .none
      | cons other others =>
          refine iff_of_false Bool.false_ne_true fun related => ?_
          cases related 0
  | cons item items inductionHypothesis =>
      cases others with
      | nil =>
          refine iff_of_false Bool.false_ne_true fun related => ?_
          cases related 0
      | cons other others =>
          rw [sameItems, Bool.and_eq_true, inductionHypothesis]
          constructor
          · rintro ⟨equal, later⟩ index
            cases index with
            | zero => exact .some equal
            | succ index => exact later index
          · intro related
            refine ⟨?_, fun index => related (index + 1)⟩
            cases related 0 with
            | some equal => exact equal

private theorem length_eq_of_equal {items others : List Value} (equal : Equal (array items) (array others)) :
    items.length = others.length := by
  have bothAbsent (index : Nat) : items[index]? = none ↔ others[index]? = none :=
    eq_none_iff_of_rel (equal_array_iff.1 equal index)
  simp only [List.getElem?_eq_none_iff] at bothAbsent
  apply Nat.le_antisymm
  · exact (bothAbsent others.length).2 (Nat.le_refl _)
  · exact (bothAbsent items.length).1 (Nat.le_refl _)

/-- Fields are the same as others if each has an equal one under its name. -/
theorem sameFields_iff :
    sameFields fields others = true ↔
      ∀ field ∈ fields, ∃ other, Entries.get? field.1 others = some other ∧ Equal field.2 other := by
  induction fields with
  | nil => simp [sameFields]
  | cons field fields inductionHypothesis =>
      rw [sameFields, Bool.and_eq_true, inductionHypothesis, List.forall_mem_cons]
      apply and_congr_left'
      cases Entries.get? field.1 others <;> simp [Equal]

private theorem perm_names_of_included (distinct : (Entries.names fields).Nodup)
    (sameLength : fields.length = others.length)
    (included : ∀ field ∈ fields,
      ∃ other, Entries.get? field.1 others = some other ∧ Equal field.2 other) :
    (Entries.names fields).Perm (Entries.names others) := by
  have subset : Entries.names fields ⊆ Entries.names others := by
    intro name member
    obtain ⟨field, isField, rfl⟩ := List.mem_map.1 member
    obtain ⟨other, found, _⟩ := included field isField
    exact List.mem_map.2 ⟨_, Entries.mem_of_get?_eq_some found, rfl⟩
  apply (distinct.subperm subset).perm_of_length_le
  rw [Entries.length_names, Entries.length_names]
  exact Nat.le_of_eq sameLength.symm

private theorem perm_names_of_rel (distinct : (Entries.names fields).Nodup)
    (distinctOthers : (Entries.names others).Nodup)
    (related : ∀ name, Option.Rel Equal (Entries.get? name fields) (Entries.get? name others)) :
    (Entries.names fields).Perm (Entries.names others) := by
  apply (List.perm_ext_iff_of_nodup distinct distinctOthers).2
  intro name
  have bothAbsent := eq_none_iff_of_rel (related name)
  rw [Entries.get?_eq_none_iff, Entries.get?_eq_none_iff] at bothAbsent
  exact not_iff_not.1 bothAbsent

/-- Objects are equal if they have under each name equal fields, or none. -/
theorem equal_object_iff (distinct : (Entries.names fields).Nodup)
    (distinctOthers : (Entries.names others).Nodup) :
    Equal (object fields) (object others) ↔
      ∀ name, Option.Rel Equal (Entries.get? name fields) (Entries.get? name others) := by
  rw [Equal, same, Bool.and_eq_true, beq_iff_eq, sameFields_iff]
  constructor
  · rintro ⟨sameLength, included⟩ name
    have sameNames := perm_names_of_included distinct sameLength included
    cases found : Entries.get? name fields with
    | none =>
        rw [Entries.get?_eq_none_iff, sameNames.mem_iff, ← Entries.get?_eq_none_iff] at found
        rw [found]
        exact .none
    | some value =>
        obtain ⟨other, isOther, equal⟩ := included _ (Entries.mem_of_get?_eq_some found)
        rw [isOther]
        exact .some equal
  · intro related
    have sameNames := perm_names_of_rel distinct distinctOthers related
    refine ⟨?_, fun field member => ?_⟩
    · rw [← Entries.length_names, sameNames.length_eq, Entries.length_names]
    · have related := related field.1
      rw [Entries.get?_eq_some_of_mem distinct member] at related
      generalize Entries.get? field.1 others = found at related
      cases related with
      | some equal => exact ⟨_, rfl, equal⟩

/-! ## Symmetry and transitivity -/

theorem rel_symm {found? other? : Option Value} (related : Option.Rel Equal found? other?)
    (symm : ∀ found, found? = some found → ∀ other, other? = some other →
      Equal found other → Equal other found) : Option.Rel Equal other? found? := by
  cases related with
  | none => exact .none
  | some equal => exact .some (symm _ rfl _ rfl equal)

theorem rel_trans {found? other? third? : Option Value} (related : Option.Rel Equal found? other?)
    (next : Option.Rel Equal other? third?)
    (trans : ∀ found, found? = some found → ∀ other, other? = some other →
      ∀ third, third? = some third → Equal found other → Equal other third → Equal found third) :
    Option.Rel Equal found? third? := by
  cases related with
  | none =>
      cases next with
      | none => exact .none
  | some equal =>
      cases next with
      | some equalNext => exact .some (trans _ rfl _ rfl _ rfl equal equalNext)

/-- Equality of well-formed values is symmetric. -/
theorem Equal.symm (wellFormed : value.WellFormed) (wellFormedOther : other.WellFormed)
    (equal : Equal value other) : Equal other value := by
  induction wellFormed generalizing other with
  | number x =>
      cases equal.matchCases
      exact Number.beq_symm equal
  | string | bool | null =>
      cases equal.matchCases
      exact equal
  | object distinct _ inductionHypothesis =>
      cases equal.matchCases
      cases wellFormedOther with
      | object distinctOthers wellFormedOthers =>
          rw [equal_object_iff distinct distinctOthers] at equal
          rw [equal_object_iff distinctOthers distinct]
          intro name
          apply rel_symm (equal name)
          intro found isFound other isOther
          exact inductionHypothesis _ (Entries.mem_of_get?_eq_some isFound)
            (wellFormedOthers _ (Entries.mem_of_get?_eq_some isOther))
  | array _ inductionHypothesis =>
      cases equal.matchCases
      cases wellFormedOther with
      | array wellFormedOthers =>
          rw [equal_array_iff] at equal ⊢
          intro index
          apply rel_symm (equal index)
          intro found isFound other isOther
          exact inductionHypothesis _ (List.mem_of_getElem? isFound)
            (wellFormedOthers _ (List.mem_of_getElem? isOther))

/-- Equality of well-formed values is transitive. -/
theorem Equal.trans (wellFormed : value.WellFormed) (wellFormedOther : other.WellFormed)
    (wellFormedThird : third.WellFormed) (equal : Equal value other) (next : Equal other third) :
    Equal value third := by
  induction wellFormed generalizing other third with
  | number x =>
      cases equal.matchCases
      cases next.matchCases
      exact Number.beq_trans equal next
  | string | bool | null =>
      cases equal.matchCases
      exact next
  | object distinct _ inductionHypothesis =>
      cases equal.matchCases
      cases next.matchCases
      cases wellFormedOther with
      | object distinctOthers wellFormedOthers =>
          cases wellFormedThird with
          | object distinctThird wellFormedThird =>
              rw [equal_object_iff distinct distinctOthers] at equal
              rw [equal_object_iff distinctOthers distinctThird] at next
              rw [equal_object_iff distinct distinctThird]
              intro name
              apply rel_trans (equal name) (next name)
              intro found isFound other isOther third isThird
              exact inductionHypothesis _ (Entries.mem_of_get?_eq_some isFound)
                (wellFormedOthers _ (Entries.mem_of_get?_eq_some isOther))
                (wellFormedThird _ (Entries.mem_of_get?_eq_some isThird))
  | array _ inductionHypothesis =>
      cases equal.matchCases
      cases next.matchCases
      cases wellFormedOther with
      | array wellFormedOthers =>
          cases wellFormedThird with
          | array wellFormedThird =>
              rw [equal_array_iff] at equal next ⊢
              intro index
              apply rel_trans (equal index) (next index)
              intro found isFound other isOther third isThird
              exact inductionHypothesis _ (List.mem_of_getElem? isFound)
                (wellFormedOthers _ (List.mem_of_getElem? isOther))
                (wellFormedThird _ (List.mem_of_getElem? isThird))

/-! ## What matching values share -/

theorem same_number_of_notANumber {x : Float} (isNaN : Number.parts x = .notANumber)
    (other : Value) : (number x).same other = false := by
  cases other with
  | number y =>
      rw [← Bool.not_eq_true]
      exact fun equal => (Number.beq_iff.1 equal).2 isNaN
  | _ => rfl

theorem same_notANumber {y : Float} (isNaN : Number.parts y = .notANumber) (value : Value) :
    value.same (number y) = false := by
  cases value with
  | number x =>
      rw [← Bool.not_eq_true]
      exact fun equal => (Number.beq_iff.1 (Number.beq_symm equal)).2 isNaN
  | _ => rfl

/-- Values that match are equal to the same values. -/
theorem Matches.same_eq {left right otherLeft otherRight : Value}
    (leftMatched : Matches left otherLeft) (rightMatched : Matches right otherRight)
    (wellFormedLeft : left.WellFormed) (wellFormedRight : right.WellFormed)
    (wellFormedOtherLeft : otherLeft.WellFormed) (wellFormedOtherRight : otherRight.WellFormed) :
    left.same right = otherLeft.same otherRight := by
  cases leftMatched with
  | notANumber isNaN isOtherNaN =>
      rw [same_number_of_notANumber isNaN, same_number_of_notANumber isOtherNaN]
  | equal leftEqual =>
      cases rightMatched with
      | notANumber isNaN isOtherNaN => rw [same_notANumber isNaN, same_notANumber isOtherNaN]
      | equal rightEqual =>
          have leftBack := Equal.symm wellFormedLeft wellFormedOtherLeft leftEqual
          have rightBack := Equal.symm wellFormedRight wellFormedOtherRight rightEqual
          apply Bool.eq_iff_iff.2
          constructor
          · intro equal
            have throughLeft : Equal otherLeft right :=
              .trans wellFormedOtherLeft wellFormedLeft wellFormedRight leftBack equal
            exact throughLeft.trans wellFormedOtherLeft wellFormedRight wellFormedOtherRight
              rightEqual
          · intro equal
            have throughLeft : Equal left otherRight :=
              .trans wellFormedLeft wellFormedOtherLeft wellFormedOtherRight leftEqual equal
            exact throughLeft.trans wellFormedLeft wellFormedOtherRight wellFormedRight rightBack

theorem Matches.field (matched : Matches value other) (wellFormed : value.WellFormed)
    (wellFormedOther : other.WellFormed) (name : String) :
    Alike Matches (value.field name) (other.field name) := by
  cases matched.matchCases with
  | object equal =>
      cases wellFormed with
      | object distinct _ =>
          cases wellFormedOther with
          | object distinctOthers _ =>
              have related := (equal_object_iff distinct distinctOthers).1 equal name
              rw [Value.field, Value.field]
              generalize Entries.get? name _ = found? at related ⊢
              generalize Entries.get? name _ = other? at related ⊢
              cases related with
              | none => exact .error _
              | some equalFields => exact .ok (.equal equalFields)
  | _ => exact .error _

theorem Matches.element (matched : Matches value other) (index : Int) :
    Alike Matches (value.element index) (other.element index) := by
  cases matched.matchCases with
  | @array items others equal =>
      rw [Value.element, Value.element, length_eq_of_equal equal]
      split
      · exact .error _
      · have related := equal_array_iff.1 equal index.toNat
        generalize items[index.toNat]? = found? at related ⊢
        generalize others[index.toNat]? = other? at related ⊢
        cases related with
        | none => exact .error _
        | some equalItems => exact .ok (.equal equalItems)
  | _ => exact .error _

end Rulebook.Value
