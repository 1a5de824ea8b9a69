import Rulebook.Proofs.Value.WellFormed

/-!
# Paths into values

Reading and writing at the end of a path. What was written is read again; parts that the path neither
leads to nor goes through are read as before; the containers on the way keep their shape, but for the
last one, which may gain a field; and writing what is there changes nothing.
-/

namespace Rulebook

/-! ## Entries -/

namespace Entries

universe u

variable {α : Type u} {name : String} {entry : α} {entries : List (String × α)}

theorem set_eq_self (found : get? name entries = some entry) : set name entry entries = entries := by
  induction entries with
  | nil => cases found
  | cons first rest inductionHypothesis =>
      obtain ⟨key, old⟩ := first
      rw [get?] at found
      rw [set]
      split at found
      · next same =>
          injection found with sameEntry
          rw [if_pos same, sameEntry]
      · next different => rw [if_neg different, inductionHypothesis found]

private theorem names_set_of_mem (member : name ∈ names entries) :
    names (set name entry entries) = names entries := by
  induction entries with
  | nil => cases member
  | cons first rest inductionHypothesis =>
      obtain ⟨key, old⟩ := first
      rw [set]
      split
      · rfl
      · next different =>
          have later : name ∈ names rest :=
            (List.mem_cons.1 member).resolve_left fun same => different same.symm
          rw [names_cons, names_cons, inductionHypothesis later]

private theorem names_set_of_not_mem (absent : name ∉ names entries) :
    names (set name entry entries) = names entries ++ [name] := by
  induction entries with
  | nil => rfl
  | cons first rest inductionHypothesis =>
      obtain ⟨key, old⟩ := first
      obtain ⟨different, absentLater⟩ := not_or.1 (mt List.mem_cons.2 absent)
      rw [set, if_neg fun same => different same.symm, names_cons, names_cons,
        inductionHypothesis absentLater, List.cons_append]

end Entries

namespace Table

universe u

variable {α : Type u}

theorem set_eq_self {table : Table α} {name : String} {entry : α}
    (found : table.get? name = some entry) : table.set name entry = table := by
  obtain ⟨entries, distinct⟩ := table
  have same : Entries.set name entry entries = entries := Entries.set_eq_self found
  simp only [set, same]

end Table

namespace Value

variable {value part after : Value} {step other : Step} {steps path : List Step}

/-! ## One step -/

theorem child_field_eq_ok_iff {name : String} :
    value.child (.field name) = .ok part ↔
      ∃ fields, value = object fields ∧ Entries.get? name fields = some part := by
  cases value with
  | object fields => cases found : Entries.get? name fields <;> simp [child, field, found]
  | _ => simp [child, field]

theorem child_element_eq_ok_iff {index : Int} :
    value.child (.element index) = .ok part ↔
      ∃ items, value = array items ∧ 0 ≤ index ∧ items[index.toNat]? = some part := by
  cases value with
  | array items =>
      by_cases notNegative : 0 ≤ index
      · cases found : items[index.toNat]? <;>
          simp [child, element, notNegative, Int.not_lt.2 notNegative, found]
      · simp [child, element, notNegative, Int.not_le.1 notNegative]
  | _ => simp [child, element]

theorem replace_field_eq_ok_iff {name : String} :
    value.replace (.field name) part = .ok after ↔
      ∃ fields, value = object fields ∧ after = object (Entries.set name part fields) := by
  cases value with
  | object fields => simp [replace, eq_comm]
  | _ => simp [replace]

theorem replace_element_eq_ok_iff {index : Int} :
    value.replace (.element index) part = .ok after ↔
      ∃ items, value = array items ∧ 0 ≤ index ∧ index.toNat < items.length ∧
        after = array (items.set index.toNat part) := by
  cases value with
  | array items =>
      by_cases outside : index < 0 ∨ items.length ≤ index.toNat
      · have refused : ¬ (0 ≤ index ∧ index.toNat < items.length) := by omega
        simp only [replace, Bool.or_eq_true, decide_eq_true_eq, outside, if_true]
        constructor
        · intro replaced
          cases replaced
        · rintro ⟨others, same, notNegative, inside, _⟩
          cases same
          exact absurd ⟨notNegative, inside⟩ refused
      · simp only [replace, Bool.or_eq_true, decide_eq_true_eq, outside, if_false]
        constructor
        · intro replaced
          cases replaced
          exact ⟨items, rfl, by omega, by omega, rfl⟩
        · rintro ⟨others, same, _, _, isAfter⟩
          cases same
          rw [isAfter]
  | _ => simp [replace]

/-- What was put into a place is found there. -/
theorem child_replace_self (replaced : value.replace step part = .ok after) :
    after.child step = .ok part := by
  cases step with
  | field name =>
      obtain ⟨fields, rfl, rfl⟩ := replace_field_eq_ok_iff.1 replaced
      exact child_field_eq_ok_iff.2 ⟨_, rfl, Entries.get?_set_self⟩
  | element index =>
      obtain ⟨items, rfl, notNegative, inside, rfl⟩ := replace_element_eq_ok_iff.1 replaced
      exact child_element_eq_ok_iff.2 ⟨_, rfl, notNegative, List.getElem?_set_self inside⟩

private theorem child_replace_of_ne (replaced : value.replace step part = .ok after)
    (different : other ≠ step) : after.child other = value.child other := by
  cases step with
  | field name =>
      obtain ⟨fields, rfl, rfl⟩ := replace_field_eq_ok_iff.1 replaced
      cases other with
      | field otherName =>
          have differentName : otherName ≠ name := fun same => different (by rw [same])
          simp only [child, field, Entries.get?_set_of_ne differentName]
      | element index => rfl
  | element index =>
      obtain ⟨items, rfl, notNegative, inside, rfl⟩ := replace_element_eq_ok_iff.1 replaced
      cases other with
      | field name => rfl
      | element otherIndex =>
          by_cases negative : otherIndex < 0
          · simp only [child, element, negative, if_true, List.length_set]
          · have differentPlace : index.toNat ≠ otherIndex.toNat := by
              intro same
              apply different
              congr 1
              omega
            simp only [child, element, negative, if_false, List.length_set,
              List.getElem?_set_ne differentPlace]

private theorem replace_child (found : value.child step = .ok part) :
    value.replace step part = .ok value := by
  cases step with
  | field name =>
      obtain ⟨fields, rfl, isField⟩ := child_field_eq_ok_iff.1 found
      exact replace_field_eq_ok_iff.2 ⟨fields, rfl, by rw [Entries.set_eq_self isField]⟩
  | element index =>
      obtain ⟨items, rfl, notNegative, isItem⟩ := child_element_eq_ok_iff.1 found
      obtain ⟨inside, rfl⟩ := List.getElem?_eq_some_iff.1 isItem
      exact replace_element_eq_ok_iff.2
        ⟨items, rfl, notNegative, inside, by rw [List.set_getElem_self]⟩

/-! ## Shapes -/

/-- `SameShape container other` means that both are objects with the same names of fields, or arrays of
one length. -/
inductive SameShape : Value → Value → Prop
  | object {fields others : List (String × Value)} :
      Entries.names fields = Entries.names others →
      SameShape (object fields) (object others)
  | array {items others : List Value} :
      items.length = others.length →
      SameShape (array items) (array others)

/-- `GainsField name container other` means that an object has the fields of another one, by their
names, and behind them a new one. -/
inductive GainsField (name : String) : Value → Value → Prop
  | object {fields others : List (String × Value)} :
      name ∉ Entries.names fields →
      Entries.names others = Entries.names fields ++ [name] →
      GainsField name (object fields) (object others)

theorem shape_of_replace (replaced : value.replace step part = .ok after) :
    value.SameShape after ∨ ∃ name, step = .field name ∧ value.GainsField name after := by
  cases step with
  | field name =>
      obtain ⟨fields, rfl, rfl⟩ := replace_field_eq_ok_iff.1 replaced
      by_cases member : name ∈ Entries.names fields
      · exact .inl (.object (Entries.names_set_of_mem member).symm)
      · exact .inr ⟨name, rfl, .object member (Entries.names_set_of_not_mem member)⟩
  | element index =>
      obtain ⟨items, rfl, _, _, rfl⟩ := replace_element_eq_ok_iff.1 replaced
      exact .inl (.array List.length_set.symm)

private theorem sameShape_of_replace {old : Value} (replaced : value.replace step part = .ok after)
    (found : value.child step = .ok old) : value.SameShape after := by
  rcases shape_of_replace replaced with same | ⟨name, rfl, gains⟩
  · exact same
  · obtain ⟨fields, rfl, isField⟩ := child_field_eq_ok_iff.1 found
    cases gains with
    | object absent _ =>
        rw [Entries.get?_eq_none_iff.2 absent] at isField
        cases isField

/-! ## Whole paths -/

theorem follow_cons {found : Value} (isChild : value.child step = .ok found) :
    value.follow (step :: steps) = found.follow steps := by
  rw [follow, isChild]
  rfl

theorem follow_snoc (value : Value) (steps : List Step) (step : Step) :
    value.follow (steps ++ [step]) = value.follow steps >>= fun found => found.child step := by
  induction steps generalizing value with
  | nil =>
      show (value.child step >>= fun found => .ok found) = value.child step
      cases value.child step <;> rfl
  | cons first steps inductionHypothesis =>
      rw [List.cons_append, follow, follow]
      cases value.child first with
      | error fault => rfl
      | ok found => exact inductionHypothesis found

/-- What writing does at the first step of a path. -/
theorem exists_of_write_cons (written : value.write (step :: steps) part = .ok after) :
    ∃ inner, value.replace step inner = .ok after ∧
      (steps = [] ∧ inner = part ∨
        ∃ found, value.child step = .ok found ∧ found.write steps part = .ok inner) := by
  cases steps with
  | nil => exact ⟨part, written, .inl ⟨rfl, rfl⟩⟩
  | cons next steps =>
      obtain ⟨found, isChild, written⟩ := bind_eq_ok_iff.1 written
      obtain ⟨inner, isInner, written⟩ := bind_eq_ok_iff.1 written
      exact ⟨inner, written, .inr ⟨found, isChild, isInner⟩⟩

private theorem write_cons {found inner : Value} (isChild : value.child step = .ok found)
    (written : found.write steps part = .ok inner) :
    value.write (step :: steps) part = value.replace step inner := by
  cases steps with
  | nil =>
      cases written
      rfl
  | cons next steps =>
      have later : value.write (step :: next :: steps) part =
          value.child step >>= fun found =>
            found.write (next :: steps) part >>= fun inner => value.replace step inner := rfl
      rw [later, isChild]
      exact congrArg (· >>= fun inner => value.replace step inner) written

/-- What was written at a path is found there. -/
theorem follow_write_self (written : value.write steps part = .ok after) :
    after.follow steps = .ok part := by
  induction steps generalizing value after with
  | nil =>
      cases written
      rfl
  | cons step steps inductionHypothesis =>
      obtain ⟨inner, replaced, isEnd | ⟨found, _, writtenLater⟩⟩ := exists_of_write_cons written
      · obtain ⟨rfl, rfl⟩ := isEnd
        exact follow_cons (child_replace_self replaced)
      · rw [follow_cons (child_replace_self replaced)]
        exact inductionHypothesis writtenLater

/-- Where neither path leads through the other, a write leaves the rest alone. -/
theorem follow_write_apart (written : value.write steps part = .ok after)
    (notBefore : ¬ path <+: steps) (notBehind : ¬ steps <+: path) :
    after.follow path = value.follow path := by
  induction steps generalizing value after path with
  | nil => exact absurd List.nil_prefix notBehind
  | cons step steps inductionHypothesis =>
      cases path with
      | nil => exact absurd List.nil_prefix notBefore
      | cons other path =>
          obtain ⟨inner, replaced, isLast⟩ := exists_of_write_cons written
          by_cases same : other = step
          · subst same
            rw [List.prefix_cons_inj] at notBefore notBehind
            rcases isLast with ⟨rfl, _⟩ | ⟨found, isChild, writtenLater⟩
            · exact absurd List.nil_prefix notBehind
            · rw [follow_cons (child_replace_self replaced), follow_cons isChild]
              exact inductionHypothesis writtenLater notBefore notBehind
          · rw [follow, follow, child_replace_of_ne replaced same]

theorem containers_of_write {before behind : List Step}
    (written : value.write (before ++ step :: behind) part = .ok after) :
    ∃ container changed, value.follow before = .ok container ∧ after.follow before = .ok changed ∧
      (container.SameShape changed ∨
        behind = [] ∧ ∃ name, step = .field name ∧ container.GainsField name changed) := by
  induction before generalizing value after with
  | nil =>
      obtain ⟨inner, replaced, isLast⟩ := exists_of_write_cons written
      refine ⟨value, after, rfl, rfl, ?_⟩
      rcases isLast with ⟨isEnd, _⟩ | ⟨found, isChild, _⟩
      · exact (shape_of_replace replaced).imp id fun gains => ⟨isEnd, gains⟩
      · exact .inl (sameShape_of_replace replaced isChild)
  | cons first before inductionHypothesis =>
      obtain ⟨inner, replaced, isLast⟩ := exists_of_write_cons written
      rcases isLast with ⟨isEnd, _⟩ | ⟨found, isChild, writtenLater⟩
      · simp at isEnd
      · obtain ⟨container, changed, isContainer, isChanged, shape⟩ := inductionHypothesis writtenLater
        refine ⟨container, changed, ?_, ?_, shape⟩
        · rw [follow_cons isChild, isContainer]
        · rw [follow_cons (child_replace_self replaced), isChanged]

/-- To write what is there already changes nothing. -/
theorem write_follow (followed : value.follow steps = .ok part) :
    value.write steps part = .ok value := by
  induction steps generalizing value with
  | nil => exact followed.symm
  | cons step steps inductionHypothesis =>
      obtain ⟨found, isChild, followed⟩ := bind_eq_ok_iff.1 followed
      rw [write_cons isChild (inductionHypothesis followed)]
      exact replace_child isChild

end Value

end Rulebook
