import Mathlib.Data.List.Nodup
import Rulebook.RuleBase

/-!
# Entries of a rule base

A rule base as a map from names to rules, with an order of its names: what every operation does to
the rule under each name, and to the names.
-/

namespace Rulebook

/-! ## Names without repetitions -/

section Repetitions

variable {names : List String}

theorem nodup_eraseDups (names : List String) : names.eraseDups.Nodup := by
  cases names with
  | nil => exact List.nodup_nil
  | cons first names =>
      rw [List.eraseDups_cons]
      apply List.nodup_cons.2
      constructor
      · rw [List.mem_eraseDups]
        simp
      · exact nodup_eraseDups (names.filter fun name => !name == first)
termination_by names.length
decreasing_by exact Nat.lt_succ_of_le (List.length_filter_le _ names)

theorem eraseDups_eq_self (distinct : names.Nodup) : names.eraseDups = names := by
  induction names with
  | nil => rfl
  | cons first names inductionHypothesis =>
      obtain ⟨absent, distinctLater⟩ := List.nodup_cons.1 distinct
      have othersDiffer : ∀ name ∈ names, (!name == first) = true := by
        intro name member
        rw [Bool.not_eq_true', beq_eq_false_iff_ne]
        intro same
        exact absent (same ▸ member)
      rw [List.eraseDups_cons, List.filter_eq_self.2 othersDiffer,
        inductionHypothesis distinctLater]

theorem eraseDups_append_of_subset {others : List String} (subset : others ⊆ names) :
    (names ++ others).eraseDups = names.eraseDups := by
  have noneLeft : others.removeAll names = [] := by
    apply List.filter_eq_nil_iff.2
    intro name member
    simpa using subset member
  rw [List.eraseDups_append, noneLeft, List.eraseDups_nil, List.append_nil]

/-- Repetitions among names may be left out before other names come behind them. -/
theorem eraseDups_eraseDups_append (names others : List String) :
    (names.eraseDups ++ others).eraseDups = (names ++ others).eraseDups := by
  have sameLeft : others.removeAll names.eraseDups = others.removeAll names := by
    apply List.filter_congr
    intro name _
    rw [Bool.not_inj_iff, Bool.eq_iff_iff, List.elem_iff, List.elem_iff, List.mem_eraseDups]
  rw [List.eraseDups_append, List.eraseDups_append, sameLeft,
    eraseDups_eq_self (nodup_eraseDups names)]

end Repetitions

namespace RuleBase

variable {base after : RuleBase} {rule : Rule}

/-! ## Names -/

theorem contains_iff {name : String} :
    base.contains name = true ↔ name ∈ ruleNames base.rules := by
  simp only [contains, ruleNames, List.any_eq_true, List.mem_map, beq_iff_eq]

theorem get?_eq_none_iff {name : String} :
    base.get? name = none ↔ name ∉ ruleNames base.rules := by
  rw [← not_contains_iff, get?, contains, List.find?_eq_none, List.any_eq_false]

/-- A rule is found under a name exactly if one has that name. -/
theorem isSome_get?_iff {name : String} :
    (base.get? name).isSome = true ↔ name ∈ ruleNames base.rules := by
  rw [Option.isSome_iff_ne_none, Ne, get?_eq_none_iff, Decidable.not_not]

private theorem name_of_get? {name : String} (found : base.get? name = some rule) : rule.name = name := by
  have named := List.find?_some found
  exact beq_iff_eq.1 named

theorem mem_of_get? {name : String} (found : base.get? name = some rule) : rule ∈ base.rules :=
  List.mem_of_find?_eq_some found

/-- The rules of a rule base are those that are found under their names. -/
theorem get?_eq_some_iff : base.get? rule.name = some rule ↔ rule ∈ base.rules := by
  constructor
  · exact mem_of_get?
  · intro member
    obtain ⟨found, isFound⟩ := Option.isSome_iff_exists.1
      (isSome_get?_iff.2 (List.mem_map_of_mem (f := Rule.name) member))
    have same : found = rule :=
      List.inj_on_of_nodup_map base.distinct (mem_of_get? isFound) member (name_of_get? isFound)
    rw [isFound, same]

theorem ruleNames_append (rules others : List Rule) :
    ruleNames (rules ++ others) = ruleNames rules ++ ruleNames others :=
  List.map_append

/-! ## Rules that are added -/

/-- A rule is rejected only where its name is taken, under the policy that says so. -/
theorem add?_eq_none_iff :
    base.add? rule = none ↔ base.policy = .reject ∧ rule.name ∈ ruleNames base.rules := by
  rw [add?]
  split
  · next absent => simp [not_contains_iff.1 absent]
  · next taken =>
      rw [Bool.not_eq_false, contains_iff] at taken
      split
      · next isReject => simp [isReject, taken]
      · next isReplace => simp [isReplace]

/-- Behind an addition the rules are those from before with the new one behind them, or with the new
one in the place of the one of its name. -/
theorem rules_of_add? (added : base.add? rule = some after) :
    (rule.name ∉ ruleNames base.rules ∧ after.rules = base.rules ++ [rule]) ∨
      (rule.name ∈ ruleNames base.rules ∧ after.rules = replaced rule base.rules) := by
  rw [add?] at added
  split at added
  · next absent =>
      cases added
      exact .inl ⟨not_contains_iff.1 absent, rfl⟩
  · next taken =>
      rw [Bool.not_eq_false, contains_iff] at taken
      split at added
      · cases added
      · cases added
        exact .inr ⟨taken, rfl⟩

/-- Taking up a rule leaves the policy for duplicates. -/
theorem policy_of_add? (added : base.add? rule = some after) : after.policy = base.policy := by
  rw [add?] at added
  split at added
  · cases added
    rfl
  · split at added <;> cases added
    rfl

/-- A name that is taken keeps its place, a new one comes behind all others. -/
theorem ruleNames_of_add? (added : base.add? rule = some after) :
    ruleNames after.rules =
      if rule.name ∈ ruleNames base.rules then ruleNames base.rules
      else ruleNames base.rules ++ [rule.name] := by
  rcases rules_of_add? added with ⟨absent, isNew⟩ | ⟨taken, isReplaced⟩
  · rw [if_neg absent, isNew, ruleNames_append]
    rfl
  · rw [if_pos taken, isReplaced, ruleNames_replaced]

private theorem find?_replaced_self {rules : List Rule} (taken : rule.name ∈ ruleNames rules) :
    (replaced rule rules).find? (fun other => other.name == rule.name) = some rule := by
  induction rules with
  | nil => cases taken
  | cons first rules inductionHypothesis =>
      rw [replaced, List.map_cons]
      by_cases same : first.name = rule.name
      · rw [if_pos same, List.find?_cons_of_pos (by simp)]
      · have later : rule.name ∈ ruleNames rules :=
          (List.mem_cons.1 taken).resolve_left (Ne.symm same)
        rw [if_neg same, List.find?_cons_of_neg (by simpa using same)]
        exact inductionHypothesis later

private theorem find?_replaced_of_ne (rules : List Rule) {name : String} (different : rule.name ≠ name) :
    (replaced rule rules).find? (fun other => other.name == name) =
      rules.find? fun other => other.name == name := by
  induction rules with
  | nil => rfl
  | cons first rules inductionHypothesis =>
      rw [replaced, List.map_cons]
      by_cases same : first.name = rule.name
      · have firstDifferent : first.name ≠ name := same ▸ different
        rw [if_pos same, List.find?_cons_of_neg (by simpa using different),
          List.find?_cons_of_neg (by simpa using firstDifferent)]
        exact inductionHypothesis
      · rw [if_neg same, List.find?_cons, List.find?_cons]
        split
        · rfl
        · exact inductionHypothesis

/-- An added rule stands under its name, whatever stood there before. -/
theorem get?_of_add? (added : base.add? rule = some after) (name : String) :
    after.get? name = if rule.name = name then some rule else base.get? name := by
  rw [get?, get?]
  rcases rules_of_add? added with ⟨absent, isNew⟩ | ⟨taken, isReplaced⟩
  · rw [isNew, List.find?_append]
    split
    · next same =>
        subst same
        have notFound : base.rules.find? (fun other => other.name == rule.name) = none :=
          get?_eq_none_iff.2 absent
        rw [notFound, Option.none_or, List.find?_cons_of_pos (by simp)]
    · next different =>
        rw [List.find?_cons_of_neg (by simpa using different), List.find?_nil, Option.or_none]
  · rw [isReplaced]
    split
    · next same =>
        subst same
        exact find?_replaced_self taken
    · next different => exact find?_replaced_of_ne base.rules different

/-! ## Rules that are taken away -/

/-- To remove a rule leaves all others under their names. -/
theorem get?_erase (base : RuleBase) (name other : String) :
    (base.erase name).get? other = if other = name then none else base.get? other := by
  rw [get?, erase, List.find?_filter]
  split
  · next same =>
      rw [List.find?_eq_none]
      simp [same]
  · next different =>
      rw [get?]
      congr 1
      funext rule
      by_cases same : rule.name = other
      · simp [same, different]
      · simp [same]

theorem ruleNames_erase (base : RuleBase) (name : String) :
    ruleNames (base.erase name).rules = (ruleNames base.rules).filter fun other => other != name := by
  rw [erase, ruleNames, ruleNames, List.filter_map]
  rfl

end RuleBase

end Rulebook
