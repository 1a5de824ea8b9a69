import Mathlib.Data.List.Induction
import Rulebook.Proofs.Engine.Order
import Rulebook.Proofs.RuleBase.Entries

/-!
# Calls on a rule base

Rule bases after calls of any number. The calls that were not rejected tell all that a rule base
holds: under each name the rule that was added last, and the names in the order in which they came
in. The order of the turns follows from the saliences and that order alone.
-/

namespace Rulebook

namespace RuleBase

/-! ## Calls -/

/-- A call that may change a rule base. -/
inductive Call where
  | add (rule : Rule)
  | remove (name : String)
  | clear

/-- What a call makes of a rule base; none when it is rejected. -/
def call? (base : RuleBase) : Call → Option RuleBase
  | .add rule => base.add? rule
  | .remove name => some (base.erase name)
  | .clear => some base.clear

/-- A rule base after calls. One that is rejected changes nothing. -/
def afterCalls (base : RuleBase) : List Call → RuleBase
  | [] => base
  | call :: calls => ((base.call? call).getD base).afterCalls calls

/-- The calls that are not rejected, in order. -/
def accepted (base : RuleBase) : List Call → List Call
  | [] => []
  | call :: calls =>
    match base.call? call with
    | none => base.accepted calls
    | some after => call :: after.accepted calls

/-! ## What calls tell -/

/-- The rule under a name after a call, given the one before. -/
def Call.latest? (name : String) (before? : Option Rule) : Call → Option Rule
  | add rule => if rule.name = name then some rule else before?
  | remove other => if other = name then none else before?
  | clear => none

/-- The rule that was added last under a name and not taken away since. -/
def latest? (name : String) (calls : List Call) : Option Rule :=
  calls.foldl (Call.latest? name) none

/-- The place among all calls of the one with which a name came in, after a call with its place,
given that before. A name that is there keeps its place. -/
def Call.entered? (name : String) (before? : Option Nat) : Call × Nat → Option Nat
  | (add rule, place) => if rule.name = name then before?.or (some place) else before?
  | (remove other, _) => if other = name then none else before?
  | (clear, _) => none

/-- The place among all calls of the first one that added a rule under a name since the name was
absent. -/
def entered? (name : String) (calls : List Call) : Option Nat :=
  calls.zipIdx.foldl (Call.entered? name) none

theorem latest?_snoc (name : String) (calls : List Call) (call : Call) :
    latest? name (calls ++ [call]) = call.latest? name (latest? name calls) := by
  rw [latest?, List.foldl_append]
  rfl

theorem entered?_snoc (name : String) (calls : List Call) (call : Call) :
    entered? name (calls ++ [call]) =
      Call.entered? name (entered? name calls) (call, calls.length) := by
  rw [entered?, List.zipIdx_append, List.foldl_append, Nat.zero_add]
  rfl

/-- Whether a name came in before another one, both being there. -/
def CameBefore (calls : List Call) (name other : String) : Prop :=
  ∃ place otherPlace, entered? name calls = some place ∧ entered? other calls = some otherPlace ∧
    place < otherPlace

private theorem entered?_lt {name : String} {calls : List Call} {place : Nat}
    (entered : entered? name calls = some place) : place < calls.length := by
  induction calls using List.reverseRecOn with
  | nil => cases entered
  | append_singleton calls call inductionHypothesis =>
      rw [List.length_append, List.length_singleton]
      rw [entered?_snoc] at entered
      have ofBefore (isBefore : entered? name calls = some place) : place < calls.length + 1 :=
        Nat.lt_succ_of_lt (inductionHypothesis isBefore)
      cases call with
      | add rule =>
          rw [Call.entered?] at entered
          split at entered
          · rcases Option.or_eq_some_iff.1 entered with isBefore | ⟨_, isNow⟩
            · exact ofBefore isBefore
            · cases isNow
              exact Nat.lt_succ_self calls.length
          · exact ofBefore entered
      | remove other =>
          rw [Call.entered?] at entered
          split at entered
          · cases entered
          · exact ofBefore entered
      | clear => cases entered

/-- A name has a place just if there is a rule under it. -/
theorem isSome_entered? (name : String) (calls : List Call) :
    (entered? name calls).isSome = (latest? name calls).isSome := by
  induction calls using List.reverseRecOn with
  | nil => rfl
  | append_singleton calls call inductionHypothesis =>
      rw [entered?_snoc, latest?_snoc]
      cases call with
      | add rule =>
          rw [Call.entered?, Call.latest?]
          split
          · simp
          · exact inductionHypothesis
      | remove other =>
          rw [Call.entered?, Call.latest?]
          split
          · rfl
          · exact inductionHypothesis
      | clear => rfl

/-! ## Rule bases in step with calls -/

variable {base after : RuleBase} {calls : List Call}

/-- `Reflects calls base` means that a rule base holds what the calls tell. -/
structure Reflects (calls : List Call) (base : RuleBase) : Prop where
  latest : ∀ name, base.get? name = latest? name calls
  inOrder : (ruleNames base.rules).Pairwise (CameBefore calls)

private theorem reflects_empty (policy : DuplicatePolicy) : Reflects [] (empty policy) :=
  ⟨fun _ => rfl, List.Pairwise.nil⟩

theorem Reflects.isSome_entered?_iff (reflects : Reflects calls base) {name : String} :
    (entered? name calls).isSome = true ↔ name ∈ ruleNames base.rules := by
  rw [isSome_entered?, ← reflects.latest, isSome_get?_iff]

/-- Names that keep their places stay in their order. -/
theorem Reflects.keepsOrder {call : Call} {names : List String} (reflects : Reflects calls base)
    (fewer : names.Sublist (ruleNames base.rules))
    (kept : ∀ name ∈ names, entered? name (calls ++ [call]) = entered? name calls) :
    names.Pairwise (CameBefore (calls ++ [call])) := by
  apply (reflects.inOrder.sublist fewer).imp_of_mem
  intro name other member otherMember cameBefore
  obtain ⟨place, otherPlace, entered, otherEntered, earlier⟩ := cameBefore
  exact ⟨place, otherPlace, (kept name member).trans entered,
    (kept other otherMember).trans otherEntered, earlier⟩

/-- Taking up a rule keeps the rule base in agreement with the calls. -/
theorem Reflects.add {rule : Rule} (reflects : Reflects calls base)
    (added : base.add? rule = some after) : Reflects (calls ++ [.add rule]) after := by
  constructor
  · intro name
    rw [latest?_snoc, Call.latest?, get?_of_add? added, reflects.latest]
  · have entered (name : String) : entered? name (calls ++ [.add rule]) =
        if rule.name = name then (entered? name calls).or (some calls.length)
        else entered? name calls := entered?_snoc name calls (.add rule)
    have kept : ∀ name ∈ ruleNames base.rules,
        entered? name (calls ++ [.add rule]) = entered? name calls := by
      intro name member
      obtain ⟨place, isPlace⟩ := Option.isSome_iff_exists.1 (reflects.isSome_entered?_iff.2 member)
      rw [entered, isPlace, Option.some_or, ite_self]
    have inOrder := reflects.keepsOrder (List.Sublist.refl _) kept
    rw [ruleNames_of_add? added]
    split
    · exact inOrder
    · next absent =>
        have notEntered : entered? rule.name calls = none := by
          rw [← Option.isNone_iff_eq_none, ← Option.isSome_eq_false_iff, Bool.eq_false_iff]
          exact mt reflects.isSome_entered?_iff.1 absent
        have entersNow : entered? rule.name (calls ++ [.add rule]) = some calls.length := by
          rw [entered, if_pos rfl, notEntered, Option.none_or]
        apply List.pairwise_append.2
        refine ⟨inOrder, List.pairwise_singleton _ _, ?_⟩
        intro name member other isNew
        obtain rfl := List.mem_singleton.1 isNew
        obtain ⟨place, isPlace⟩ :=
          Option.isSome_iff_exists.1 (reflects.isSome_entered?_iff.2 member)
        exact ⟨place, calls.length, (kept name member).trans isPlace, entersNow,
          entered?_lt isPlace⟩

theorem Reflects.remove (reflects : Reflects calls base) (name : String) :
    Reflects (calls ++ [.remove name]) (base.erase name) := by
  constructor
  · intro other
    rw [latest?_snoc, Call.latest?, get?_erase, reflects.latest]
    simp only [eq_comm]
  · rw [ruleNames_erase]
    apply reflects.keepsOrder List.filter_sublist
    intro other member
    have different : other ≠ name := bne_iff_ne.1 (List.mem_filter.1 member).2
    rw [entered?_snoc, Call.entered?, if_neg (Ne.symm different)]

private theorem reflects_clear (calls : List Call) (base : RuleBase) :
    Reflects (calls ++ [.clear]) base.clear := by
  constructor
  · intro name
    rw [latest?_snoc]
    rfl
  · exact List.Pairwise.nil

/-- One call keeps the rule base in agreement with the calls. -/
theorem Reflects.call {call : Call} (reflects : Reflects calls base)
    (isCalled : base.call? call = some after) : Reflects (calls ++ [call]) after := by
  cases call with
  | add rule => exact reflects.add isCalled
  | remove name =>
      cases isCalled
      exact reflects.remove name
  | clear =>
      cases isCalled
      exact reflects_clear calls base

/-- A rule base in step with calls stays so with those of later calls that it does not reject. -/
theorem Reflects.afterCalls {past : List Call} (reflects : Reflects past base) (calls : List Call) :
    Reflects (past ++ base.accepted calls) (base.afterCalls calls) := by
  induction calls generalizing past base with
  | nil =>
      rw [accepted, List.append_nil]
      exact reflects
  | cons call calls inductionHypothesis =>
      rw [accepted, RuleBase.afterCalls]
      cases isCalled : base.call? call with
      | none => exact inductionHypothesis reflects
      | some after =>
          rw [List.append_cons]
          exact inductionHypothesis (reflects.call isCalled)

private theorem policy_call? {call : Call} (isCalled : base.call? call = some after) :
    after.policy = base.policy := by
  cases call with
  | add rule => exact policy_of_add? isCalled
  | remove name | clear =>
      cases isCalled
      rfl

private theorem policy_afterCalls (base : RuleBase) (calls : List Call) :
    (base.afterCalls calls).policy = base.policy := by
  induction calls generalizing base with
  | nil => rfl
  | cons call calls inductionHypothesis =>
      rw [afterCalls, inductionHypothesis]
      cases isCalled : base.call? call with
      | none => rfl
      | some after => exact policy_call? isCalled

/-- What a rule base holds after any calls is told by those that it did not reject. Its names are
distinct and stand in the order in which they came in; under each of them is the rule that was added
last; a rule is rejected just if its name is there and the policy says so; and the order of the turns
is the only one with greater salience first that leaves rules of one salience in their order. -/
theorem rules_afterCalls (policy : DuplicatePolicy) (calls : List Call) :
    ∃ base past, (empty policy).afterCalls calls = base ∧ (empty policy).accepted calls = past ∧
      (ruleNames base.rules).Nodup ∧
      (ruleNames base.rules).Pairwise (CameBefore past) ∧
      (∀ name, name ∈ ruleNames base.rules ↔ (entered? name past).isSome = true) ∧
      (∀ name, base.get? name = latest? name past) ∧
      (∀ rule, rule ∈ base.rules ↔ base.get? rule.name = some rule) ∧
      (∀ rule, base.add? rule = none ↔ policy = .reject ∧ rule.name ∈ ruleNames base.rules) ∧
      ∀ order : List Rule, order = base.bySalience ↔
        order.Perm base.rules ∧
          (order.Pairwise fun rule other => other.salience ≤ rule.salience) ∧
          ∀ rule other, rule.salience = other.salience →
            [rule, other].Sublist base.rules → [rule, other].Sublist order := by
  have reflects := (reflects_empty policy).afterCalls calls
  have samePolicy := (empty policy).policy_afterCalls calls
  rw [List.nil_append] at reflects
  refine ⟨_, _, rfl, rfl, RuleBase.distinct _, reflects.inOrder, ?_, reflects.latest, ?_, ?_, ?_⟩
  · intro name
    exact reflects.isSome_entered?_iff.symm
  · intro rule
    exact get?_eq_some_iff.symm
  · intro rule
    rw [add?_eq_none_iff, samePolicy]
    rfl
  · intro order
    rw [eq_bySalience_iff]
    exact ⟨fun keeps => ⟨keeps.perm, keeps.sorted, keeps.ties⟩,
      fun ⟨perm, sorted, ties⟩ => ⟨perm, sorted, ties⟩⟩

def idling (name : String) : Rule :=
  .undescribed name 0 (.bool true) []

-- A name that comes back has lost its place, a rule that is replaced has not.
example :
    ruleNames ((empty .replace).afterCalls
      [.add (idling "a"), .add (idling "b"), .add (idling "c"), .remove "a", .add (idling "b"),
        .add (idling "a")]).rules = ["b", "c", "a"] := by
  decide

end RuleBase

end Rulebook
