import Rulebook.Proofs.Computation
import Rulebook.Proofs.Number.Unpacked
import Rulebook.Store
import Rulebook.Value.Path

/-!
# Well-formed values

Values in which no object has two fields of one name, and values that contain what is not a number.
A value of the first kind and not of the second is equal to itself; parts of it, and what is made
of it by writing a part, are of the first kind as well.
-/

namespace Rulebook

/-! ## Entries -/

namespace Entries

universe u

variable {α : Type u} {name : String} {entry : α} {entries : List (String × α)}

theorem length_names (entries : List (String × α)) : (names entries).length = entries.length :=
  List.length_map _

theorem mem_of_get?_eq_some (found : get? name entries = some entry) :
    (name, entry) ∈ entries := by
  induction entries with
  | nil => cases found
  | cons first rest inductionHypothesis =>
      obtain ⟨key, old⟩ := first
      rw [get?] at found
      split at found
      · next same =>
          injection found with sameEntry
          exact same ▸ sameEntry ▸ List.mem_cons_self
      · exact List.mem_cons_of_mem _ (inductionHypothesis found)

/-- Where no name occurs twice, each entry is found. -/
theorem get?_eq_some_of_mem (distinct : (names entries).Nodup) (member : (name, entry) ∈ entries) :
    get? name entries = some entry := by
  induction entries with
  | nil => cases member
  | cons first rest inductionHypothesis =>
      obtain ⟨absent, distinctRest⟩ := List.nodup_cons.1 distinct
      rcases List.mem_cons.1 member with rfl | later
      · rw [get?, if_pos rfl]
      · have different : first.1 ≠ name := by
          rintro rfl
          exact absent (List.mem_map.2 ⟨_, later, rfl⟩)
        rw [get?, if_neg different]
        exact inductionHypothesis distinctRest later

private theorem mem_set {other : String × α} (member : other ∈ set name entry entries) :
    other = (name, entry) ∨ other ∈ entries := by
  induction entries with
  | nil => exact .inl (List.mem_singleton.1 member)
  | cons first rest inductionHypothesis =>
      rw [set] at member
      split at member
      · next same =>
          rcases List.mem_cons.1 member with rfl | later
          · exact .inl (by rw [same])
          · exact .inr (List.mem_cons_of_mem _ later)
      · rcases List.mem_cons.1 member with rfl | later
        · exact .inr List.mem_cons_self
        · exact (inductionHypothesis later).imp id (List.mem_cons_of_mem _)

end Entries

namespace Value

/-! ## Distinct fields and numbers -/

/-- `WellFormed value` means that no object in the value has two fields of one name. -/
inductive WellFormed : Value → Prop
  | number (x : Float) : WellFormed (number x)
  | string (text : String) : WellFormed (string text)
  | bool (holds : Bool) : WellFormed (bool holds)
  | object {fields : List (String × Value)} :
      (Entries.names fields).Nodup →
      (∀ field ∈ fields, WellFormed field.2) →
      WellFormed (object fields)
  | array {items : List Value} :
      (∀ item ∈ items, WellFormed item) →
      WellFormed (array items)
  | null : WellFormed null

/-- `ContainsNaN value` means that the value, or some part of it, is not a number although it is of
that kind. -/
inductive ContainsNaN : Value → Prop
  | number {x : Float} :
      Number.parts x = .notANumber →
      ContainsNaN (number x)
  | object {fields : List (String × Value)} {field : String × Value} :
      field ∈ fields →
      ContainsNaN field.2 →
      ContainsNaN (object fields)
  | array {items : List Value} {item : Value} :
      item ∈ items →
      ContainsNaN item →
      ContainsNaN (array items)

private theorem sameItems_self {items : List Value} (equal : ∀ item ∈ items, item.same item = true) :
    sameItems items items = true := by
  induction items with
  | nil => rfl
  | cons item items inductionHypothesis =>
      rw [sameItems, equal item List.mem_cons_self,
        inductionHypothesis fun other member => equal other (List.mem_cons_of_mem item member)]
      rfl

private theorem sameFields_of_mem {fields others : List (String × Value)}
    (distinct : (Entries.names others).Nodup) (included : ∀ field ∈ fields, field ∈ others)
    (equal : ∀ field ∈ fields, field.2.same field.2 = true) :
    sameFields fields others = true := by
  induction fields with
  | nil => rfl
  | cons field fields inductionHypothesis =>
      have found := Entries.get?_eq_some_of_mem distinct (included field List.mem_cons_self)
      rw [sameFields, found]
      simp only [equal field List.mem_cons_self, Bool.true_and]
      exact inductionHypothesis
        (fun other member => included other (List.mem_cons_of_mem field member))
        (fun other member => equal other (List.mem_cons_of_mem field member))

/-- A value is equal to itself, unless some number in it is none. -/
theorem same_self {value : Value} (wellFormed : value.WellFormed)
    (noNaN : ¬ value.ContainsNaN) : value.same value = true := by
  induction wellFormed with
  | number x => exact (Number.beq_self_iff x).2 fun isNaN => noNaN (.number isNaN)
  | string text => exact beq_self_eq_true text
  | bool holds => exact beq_self_eq_true holds
  | object distinct _ inductionHypothesis =>
      rw [same, beq_self_eq_true, Bool.true_and]
      refine sameFields_of_mem distinct (fun _ member => member) ?_
      intro field member
      exact inductionHypothesis field member fun contains => noNaN (.object member contains)
  | array _ inductionHypothesis =>
      rw [same]
      refine sameItems_self fun item member => ?_
      exact inductionHypothesis item member fun contains => noNaN (.array member contains)
  | null => rfl

/-! ## Parts -/

theorem WellFormed.field {value part : Value} {name : String} (wellFormed : value.WellFormed)
    (found : value.field name = .ok part) : part.WellFormed := by
  cases wellFormed with
  | object _ fields =>
      rw [Value.field] at found
      split at found
      · next isField =>
          injection found with same
          exact same ▸ fields _ (Entries.mem_of_get?_eq_some isField)
      · cases found
  | _ => cases found

theorem WellFormed.element {value part : Value} {index : Int} (wellFormed : value.WellFormed)
    (found : value.element index = .ok part) : part.WellFormed := by
  cases wellFormed with
  | array items =>
      rw [Value.element] at found
      split at found
      · cases found
      · split at found
        · next isItem =>
            injection found with same
            exact same ▸ items _ (List.mem_of_getElem? isItem)
        · cases found
  | _ => cases found

theorem WellFormed.child {value part : Value} {step : Step} (wellFormed : value.WellFormed)
    (found : value.child step = .ok part) : part.WellFormed := by
  cases step with
  | field name => exact wellFormed.field found
  | element index => exact wellFormed.element found

theorem WellFormed.replace {value part after : Value} {step : Step}
    (wellFormed : value.WellFormed) (wellFormedPart : part.WellFormed)
    (replaced : value.replace step part = .ok after) : after.WellFormed := by
  cases step with
  | field name =>
      cases wellFormed with
      | object distinct fields =>
          cases replaced
          refine .object (Entries.nodup_set distinct) fun field member => ?_
          rcases Entries.mem_set member with rfl | old
          · exact wellFormedPart
          · exact fields field old
      | _ => cases replaced
  | element index =>
      cases wellFormed with
      | array items =>
          rw [Value.replace] at replaced
          split at replaced
          · cases replaced
          · cases replaced
            refine .array fun item member => ?_
            rcases List.mem_or_eq_of_mem_set member with old | rfl
            · exact items item old
            · exact wellFormedPart
      | _ => cases replaced

/-- Writing well-formed parts keeps values well-formed. -/
theorem WellFormed.write {value part after : Value} {steps : List Step}
    (wellFormed : value.WellFormed) (wellFormedPart : part.WellFormed)
    (written : value.write steps part = .ok after) : after.WellFormed := by
  induction steps generalizing value after with
  | nil =>
      cases written
      exact wellFormedPart
  | cons step steps inductionHypothesis =>
      cases steps with
      | nil => exact wellFormed.replace wellFormedPart written
      | cons next others =>
          obtain ⟨child, isChild, written⟩ := bind_eq_ok_iff.1 written
          obtain ⟨inner, isInner, written⟩ := bind_eq_ok_iff.1 written
          have wellFormedInner : inner.WellFormed :=
            inductionHypothesis (wellFormed.child isChild) isInner
          exact wellFormed.replace wellFormedInner written

end Value

/-! ## Stores -/

/-- Whether all facts of a store are well-formed. -/
def Store.WellFormed (store : Store) : Prop :=
  ∀ name value, store.get? name = some value → value.WellFormed

theorem Store.WellFormed.set {store : Store} {name : String} {value : Value}
    (wellFormed : store.WellFormed) (wellFormedValue : value.WellFormed) :
    Store.WellFormed (store.set name value) := by
  intro other found isFact
  by_cases same : other = name
  · subst same
    rw [Table.get?_set_self] at isFact
    injection isFact with sameValue
    exact sameValue ▸ wellFormedValue
  · rw [Table.get?_set_of_ne store value same] at isFact
    exact wellFormed other found isFact

end Rulebook
