import Rulebook.Plain.Conversion
import Rulebook.Rule.Basic

/-!
# Rule bases

Rule bases: rules of distinct names in the order in which their names were first added, and the
view of them in which greater salience comes first.
-/

namespace Rulebook

/-- What happens when a rule is added under a name that is taken. -/
inductive DuplicatePolicy where
  | reject
  | replace
deriving DecidableEq, Repr

namespace DuplicatePolicy

def name : DuplicatePolicy → String
  | reject => "reject"
  | replace => "replace"

def ofName? (name : String) : Option DuplicatePolicy :=
  [reject, replace].find? fun policy => policy.name == name

/-- The policy that a datum names, or the text that says that it names none. -/
def ofPlain : Plain → Except String DuplicatePolicy
  | .text name =>
    match ofName? name with
    | some policy => .ok policy
    | none => .error ("Unknown duplicate policy: " ++ name)
  | datum => .error ("Unknown duplicate policy: " ++ datum.toText)

end DuplicatePolicy

def ruleNames (rules : List Rule) : List String :=
  rules.map Rule.name

/-- Rules of distinct names. -/
structure RuleBase where
  policy : DuplicatePolicy
  rules : List Rule
  distinct : (ruleNames rules).Nodup

namespace RuleBase

def empty (policy : DuplicatePolicy) : RuleBase :=
  ⟨policy, [], List.nodup_nil⟩

def get? (base : RuleBase) (name : String) : Option Rule :=
  base.rules.find? fun rule => rule.name == name

/-- Whether a name is taken. -/
def contains (base : RuleBase) (name : String) : Bool :=
  base.rules.any fun rule => rule.name == name

/-- A rule put in the place of the one of its name. -/
def replaced (rule : Rule) (rules : List Rule) : List Rule :=
  rules.map fun old => if old.name = rule.name then rule else old

theorem ruleNames_replaced (rule : Rule) (rules : List Rule) :
    ruleNames (replaced rule rules) = ruleNames rules := by
  induction rules with
  | nil => rfl
  | cons old others inductionHypothesis =>
      simp only [ruleNames, replaced, List.map_cons] at *
      rw [inductionHypothesis]
      split <;> simp_all

theorem not_contains_iff {base : RuleBase} {name : String} :
    base.contains name = false ↔ name ∉ ruleNames base.rules := by
  simp only [contains, ruleNames, List.any_eq_false, List.mem_map, not_exists, not_and,
    beq_iff_eq]

theorem nodup_append_rule {base : RuleBase} {rule : Rule}
    (absent : base.contains rule.name = false) :
    (ruleNames (base.rules ++ [rule])).Nodup := by
  have different := not_contains_iff.1 absent
  simp only [ruleNames, List.map_append, List.map_cons, List.map_nil] at *
  refine List.nodup_append.2 ⟨base.distinct, by simp, ?_⟩
  intro name member other isRule
  simp only [List.mem_singleton] at isRule
  rintro rfl
  exact different (isRule ▸ member)

/-- Adds a rule behind all others. When its name is taken, it takes the place of the rule of that
name or is rejected, as the policy says. -/
def add? (base : RuleBase) (rule : Rule) : Option RuleBase :=
  if absent : base.contains rule.name = false then
    some ⟨base.policy, base.rules ++ [rule], nodup_append_rule absent⟩
  else
    match base.policy with
    | .reject => none
    | .replace =>
      some ⟨base.policy, replaced rule base.rules,
        ruleNames_replaced rule base.rules ▸ base.distinct⟩

def erase (base : RuleBase) (name : String) : RuleBase :=
  ⟨base.policy, base.rules.filter (fun rule => rule.name != name),
    List.Nodup.sublist (List.Sublist.map _ List.filter_sublist) base.distinct⟩

def clear (base : RuleBase) : RuleBase :=
  empty base.policy

/-- The rules in the order in which they take their turns: greater salience first, and rules of
one salience in the order in which they were added. -/
def bySalience (base : RuleBase) : List Rule :=
  base.rules.mergeSort fun rule other => other.salience ≤ rule.salience

end RuleBase

end Rulebook
