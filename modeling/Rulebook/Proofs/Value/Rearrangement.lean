import Rulebook.Proofs.Value.Equality

/-!
# Equality and rearrangement

Equality as a relation on all values. It is symmetric and transitive, a value is equal to itself just
if it contains nothing that is not a number, and the order in which objects have their fields makes
no difference at any depth.
-/

namespace Rulebook.Value

variable {value other third : Value}

/-! ## Values that are equal to themselves -/

/-- A value that is equal to some value contains nothing that is not a number. -/
theorem not_containsNaN_of_equal (equal : Equal value other) : ¬ value.ContainsNaN := by
  intro contains
  induction contains generalizing other with
  | number isNaN =>
      cases equal.matchCases
      exact (Number.beq_iff.1 equal).2 isNaN
  | object member _ inductionHypothesis =>
      cases equal.matchCases with
      | object equal =>
          rw [Equal, same, Bool.and_eq_true, sameFields_iff] at equal
          obtain ⟨_, _, equalField⟩ := equal.2 _ member
          exact inductionHypothesis equalField
  | array member _ inductionHypothesis =>
      cases equal.matchCases with
      | @array items others equal =>
          obtain ⟨index, isItem⟩ := List.mem_iff_getElem?.1 member
          have related := equal_array_iff.1 equal index
          rw [isItem] at related
          generalize others[index]? = other? at related
          cases related with
          | some equalItem => exact inductionHypothesis equalItem

/-- A well-formed value is the same as itself exactly if no part of it is no number. -/
theorem same_self_iff (wellFormed : value.WellFormed) :
    value.same value = true ↔ ¬ value.ContainsNaN :=
  ⟨not_containsNaN_of_equal, same_self wellFormed⟩

/-- It does not matter which of two well-formed values is compared to which. -/
theorem same_comm (wellFormed : value.WellFormed) (wellFormedOther : other.WellFormed) :
    value.same other = other.same value :=
  Bool.eq_iff_iff.2
    ⟨Equal.symm wellFormed wellFormedOther, Equal.symm wellFormedOther wellFormed⟩

/-! ## Fields in another order -/

/-- `Rearranged value other` means that two values are the same but for the order of fields, in
whatever objects and at whatever depth. -/
inductive Rearranged : Value → Value → Prop
  | refl (value : Value) :
      Rearranged value value
  | object {fields others : List (String × Value)} :
      (Entries.names fields).Perm (Entries.names others) →
      (∀ name value other, Entries.get? name fields = some value →
        Entries.get? name others = some other → Rearranged value other) →
      Rearranged (object fields) (object others)
  | array {items others : List Value} :
      items.length = others.length →
      (∀ (index : Nat) value other, items[index]? = some value →
        others[index]? = some other → Rearranged value other) →
      Rearranged (array items) (array others)

namespace Rearranged

/-- An object may have its fields in another order. -/
theorem of_perm {fields others : List (String × Value)} (distinct : (Entries.names fields).Nodup)
    (perm : fields.Perm others) : Rearranged (.object fields) (.object others) := by
  have distinctOthers := (perm.map Prod.fst).nodup_iff.1 distinct
  refine .object (perm.map Prod.fst) fun name value other isValue isOther => ?_
  have found := Entries.get?_eq_some_of_mem distinctOthers
    (perm.mem_iff.1 (Entries.mem_of_get?_eq_some isValue))
  rw [isOther] at found
  cases found
  exact .refl value

theorem wellFormed (rearranged : value.Rearranged other) (wellFormed : value.WellFormed) :
    other.WellFormed := by
  induction rearranged with
  | refl value => exact wellFormed
  | object sameNames _ inductionHypothesis =>
      cases wellFormed with
      | object distinct wellFormedFields =>
          refine .object (sameNames.nodup_iff.1 distinct) fun field member => ?_
          have found := Entries.get?_eq_some_of_mem (sameNames.nodup_iff.1 distinct) member
          have isName := sameNames.mem_iff.2 (List.mem_map_of_mem member)
          obtain ⟨before, isBefore⟩ := Option.ne_none_iff_exists'.1
            (mt Entries.get?_eq_none_iff.1 (not_not_intro isName))
          exact inductionHypothesis _ _ _ isBefore found
            (wellFormedFields _ (Entries.mem_of_get?_eq_some isBefore))
  | array sameLength _ inductionHypothesis =>
      cases wellFormed with
      | array wellFormedItems =>
          refine .array fun item member => ?_
          obtain ⟨index, isItem⟩ := List.mem_iff_getElem?.1 member
          have inside := (List.getElem?_eq_some_iff.1 isItem).1
          have isBefore := List.getElem?_eq_getElem (sameLength ▸ inside)
          exact inductionHypothesis index _ _ isBefore isItem
            (wellFormedItems _ (List.getElem_mem _))

end Rearranged

/-- Options that are both empty, or both hold values that are equal to the same ones, stand in the same
relation to any other. -/
theorem rel_equal_congr {found? other? third? : Option Value}
    (bothAbsent : found? = none ↔ other? = none)
    (congr : ∀ found, found? = some found → ∀ other, other? = some other →
      ∀ third, third? = some third → (Equal found third ↔ Equal other third)) :
    Option.Rel Equal found? third? ↔ Option.Rel Equal other? third? := by
  cases found? with
  | none => rw [bothAbsent.1 rfl]
  | some found =>
      cases other? with
      | none => cases bothAbsent.2 rfl
      | some other =>
          cases third? with
          | none => exact iff_of_false (by rintro ⟨⟩) (by rintro ⟨⟩)
          | some third =>
              rw [Option.rel_some_some, Option.rel_some_some]
              exact congr found rfl other rfl third rfl

theorem Rearranged.equal_iff (rearranged : value.Rearranged other) (wellFormed : value.WellFormed)
    (wellFormedThird : third.WellFormed) : Equal value third ↔ Equal other third := by
  have wellFormedOther := rearranged.wellFormed wellFormed
  induction rearranged generalizing third with
  | refl value => exact Iff.rfl
  | @object fields others sameNames _ inductionHypothesis =>
      cases wellFormed with
      | object distinct wellFormedFields =>
      cases wellFormedOther with
      | object distinctOthers wellFormedOthers =>
      cases wellFormedThird with
      | object distinctThird wellFormedThird =>
          rw [equal_object_iff distinct distinctThird, equal_object_iff distinctOthers distinctThird]
          refine forall_congr' fun name => rel_equal_congr ?_ ?_
          · rw [Entries.get?_eq_none_iff, Entries.get?_eq_none_iff, sameNames.mem_iff]
          · intro found isFound other isOther third isThird
            exact inductionHypothesis name found other isFound isOther
              (wellFormedFields _ (Entries.mem_of_get?_eq_some isFound))
              (wellFormedThird _ (Entries.mem_of_get?_eq_some isThird))
              (wellFormedOthers _ (Entries.mem_of_get?_eq_some isOther))
      | _ => exact Iff.rfl
  | @array items others sameLength _ inductionHypothesis =>
      cases wellFormed with
      | array wellFormedItems =>
      cases wellFormedOther with
      | array wellFormedOthers =>
      cases wellFormedThird with
      | array wellFormedThird =>
          rw [equal_array_iff, equal_array_iff]
          refine forall_congr' fun index => rel_equal_congr ?_ ?_
          · rw [List.getElem?_eq_none_iff, List.getElem?_eq_none_iff, sameLength]
          · intro found isFound other isOther third isThird
            exact inductionHypothesis index found other isFound isOther
              (wellFormedItems _ (List.mem_of_getElem? isFound))
              (wellFormedThird _ (List.mem_of_getElem? isThird))
              (wellFormedOthers _ (List.mem_of_getElem? isOther))
      | _ => exact Iff.rfl

theorem Rearranged.same_eq {rearranged rearrangedOther : Value}
    (isRearranged : value.Rearranged rearranged)
    (isRearrangedOther : other.Rearranged rearrangedOther) (wellFormed : value.WellFormed)
    (wellFormedOther : other.WellFormed) :
    rearranged.same rearrangedOther = value.same other := by
  have wellFormedRearranged := isRearranged.wellFormed wellFormed
  have wellFormedRearrangedOther := isRearrangedOther.wellFormed wellFormedOther
  calc rearranged.same rearrangedOther
      = value.same rearrangedOther :=
        Bool.eq_iff_iff.2 (isRearranged.equal_iff wellFormed wellFormedRearrangedOther).symm
    _ = rearrangedOther.same value := same_comm wellFormed wellFormedRearrangedOther
    _ = other.same value :=
        Bool.eq_iff_iff.2 (isRearrangedOther.equal_iff wellFormedOther wellFormed).symm
    _ = value.same other := same_comm wellFormedOther wellFormed

/-- Equality of values is a partial equivalence: it is symmetric and transitive, and a value is equal
to itself just if nothing in it fails to be a number. It does not depend on the order of fields in
any object of either value. -/
theorem same_partialEquivalence (wellFormed : value.WellFormed)
    (wellFormedOther : other.WellFormed) (wellFormedThird : third.WellFormed) :
    value.same other = other.same value ∧
      (value.same other = true → other.same third = true → value.same third = true) ∧
      (value.same value = true ↔ ¬ value.ContainsNaN) ∧
      ∀ rearranged rearrangedOther, value.Rearranged rearranged →
        other.Rearranged rearrangedOther →
        rearranged.same rearrangedOther = value.same other := by
  refine ⟨same_comm wellFormed wellFormedOther, ?_, same_self_iff wellFormed, ?_⟩
  · exact Equal.trans wellFormed wellFormedOther wellFormedThird
  · intro rearranged rearrangedOther isRearranged isRearrangedOther
    exact isRearranged.same_eq isRearrangedOther wellFormed wellFormedOther

/-! ### A reading that is sent in two orders -/

/-- A reading: a unit, and points of which the last is missing. -/
def reading (point : List (String × Value)) : Value :=
  .object [("unit", .string "m"), ("points", .array [.object point, .null])]

def turnedReading (point : List (String × Value)) : Value :=
  .object [("points", .array [.object point, .null]), ("unit", .string "m")]

theorem wellFormed_reading {point : List (String × Value)}
    (wellFormed : (Value.object point).WellFormed) :
    (reading point).WellFormed ∧ (turnedReading point).WellFormed := by
  have points : (Value.array [.object point, .null]).WellFormed :=
    .array (by simp [wellFormed, WellFormed.null])
  constructor
  · exact .object (by simp) (by simp [points, WellFormed.string])
  · exact .object (by simp) (by simp [points, WellFormed.string])

private theorem rearranged_turnedReading {point others : List (String × Value)}
    (rearranged : Rearranged (.object point) (.object others)) :
    (reading point).Rearranged (turnedReading others) := by
  have points : Rearranged (.array [.object point, .null]) (.array [.object others, .null]) := by
    refine .array rfl fun index value other isValue isOther => ?_
    match index with
    | 0 =>
        cases isValue
        cases isOther
        exact rearranged
    | 1 =>
        cases isValue
        cases isOther
        exact .refl _
    | index + 2 => cases isValue
  refine .object (.swap "points" "unit" []) fun name value other isValue isOther => ?_
  have isField := Entries.mem_of_get?_eq_some isValue
  simp only [List.mem_cons, List.not_mem_nil, or_false, Prod.mk.injEq] at isField
  rcases isField with ⟨rfl, rfl⟩ | ⟨rfl, rfl⟩
  · cases isOther
    exact .refl _
  · cases isOther
    exact points

/-- A reading and the same one in another order, with a zero of the other sign, are equal. -/
theorem same_partialEquivalence_reading :
    let here := reading [("x", .number 0), ("y", .number 1)]
    let there := turnedReading [("y", .number 1), ("x", .number (-0))]
    let turned := turnedReading [("y", .number 1), ("x", .number 0)]
    here.WellFormed ∧ there.WellFormed ∧ here.same there = true ∧
      here.same there = there.same here ∧ here.same here = true ∧ ¬ here.ContainsNaN ∧
      here.Rearranged turned ∧ turned.same there = here.same there := by
  intro here there turned
  have wellFormedPoint : (Value.object [("x", .number 0), ("y", .number 1)]).WellFormed :=
    .object (by decide) (by simp [WellFormed.number])
  have wellFormedOther : (Value.object [("y", .number 1), ("x", .number (-0))]).WellFormed :=
    .object (by decide) (by simp [WellFormed.number])
  have wellFormed : here.WellFormed := (wellFormed_reading wellFormedPoint).1
  have wellFormedThere : there.WellFormed := (wellFormed_reading wellFormedOther).2
  have equal : here.same there = true := by decide +kernel
  have rearranged : here.Rearranged turned :=
    rearranged_turnedReading (.of_perm (by decide) (.swap _ _ []))
  obtain ⟨symm, trans, self, turns⟩ :=
    same_partialEquivalence wellFormed wellFormedThere wellFormed
  have selfEqual := trans equal (symm.symm.trans equal)
  exact ⟨wellFormed, wellFormedThere, equal, symm, selfEqual, self.1 selfEqual, rearranged,
    turns turned there rearranged (.refl there)⟩

end Rulebook.Value
