import Rulebook.Engine.Run
import Rulebook.Proofs.Expr.Dependence
import Rulebook.Proofs.Expr.Preservation

/-!
# The turn of a rule

What the turn of a rule can lead to. A condition that fails or does not hold ends it, as does an
attempt on the same facts before; else the actions are performed. Every statement about a turn, a
pass or a run is derived from these cases and from what an attempt does to each part of a run.
-/

namespace Rulebook

/-- Whether the condition of a rule holds in a store. -/
def Rule.Holds (rule : Rule) (store : Store) : Prop :=
  rule.condition.evalCondition store = .ok (some true)

/-- Signatures of a rule are the same exactly if the facts that its condition reads are. -/
theorem Signature.same_ofRule_iff (rule : Rule) (before store : Store) :
    (Signature.ofRule rule before).same (Signature.ofRule rule store) = true ↔
      ∀ name ∈ rule.condition.references,
        Signature.sameFact (before.get? name) (store.get? name) = true := by
  simp only [Signature.ofRule]
  induction rule.condition.references with
  | nil => simp [Signature.same]
  | cons name names inductionHypothesis =>
      simp only [List.map_cons, Signature.same, beq_self_eq_true, Bool.true_and, Bool.and_eq_true,
        List.forall_mem_cons, inductionHypothesis]

namespace Run

/-! ## Actions -/

theorem performAll_cons_error {store : Store} {action : Expr} {fault : Expr.Fault}
    (failed : action.perform store = .error fault) (actions : List Expr) :
    performAll store (action :: actions) = ⟨store, [], some fault⟩ := by
  rw [performAll, failed]

theorem performAll_cons_ok {store after : Store} {action : Expr} {written? : Option String}
    (performed : action.perform store = .ok (after, written?)) (actions : List Expr) :
    performAll store (action :: actions) =
      { performAll after actions with
        written := written?.toList ++ (performAll after actions).written } := by
  rw [performAll, performed]

theorem performAll_store_of_written_eq_nil {store : Store} {actions : List Expr}
    (noWrite : (performAll store actions).written = []) :
    (performAll store actions).store = store := by
  induction actions generalizing store with
  | nil => rfl
  | cons action actions inductionHypothesis =>
      cases performed : action.perform store with
      | error fault => rw [performAll_cons_error performed]
      | ok result =>
          obtain ⟨after, written?⟩ := result
          rw [performAll_cons_ok performed] at noWrite ⊢
          obtain ⟨noName, noLater⟩ := List.append_eq_nil_iff.1 noWrite
          rcases Expr.perform_eq_ok performed with ⟨_, rfl⟩ | ⟨_, _, root, _, _, _, rfl, _⟩
          · exact inductionHypothesis noLater
          · cases noName

/-- Performing actions changes no facts but those that they assign. -/
theorem performAll_of_not_mem {store : Store} {actions : List Expr} {name : String}
    (notAssigned : ∀ target value, .assign target value ∈ actions → target.root? ≠ some name) :
    (performAll store actions).store.get? name = store.get? name := by
  induction actions generalizing store with
  | nil => rfl
  | cons action actions inductionHypothesis =>
      have notAssignedLater : ∀ target value, .assign target value ∈ actions →
          target.root? ≠ some name := fun target value member =>
        notAssigned target value (List.mem_cons_of_mem action member)
      cases performed : action.perform store with
      | error fault => rw [performAll_cons_error performed]
      | ok result =>
          obtain ⟨after, written?⟩ := result
          rw [performAll_cons_ok performed]
          refine (inductionHypothesis notAssignedLater).trans ?_
          rcases Expr.perform_eq_ok performed with ⟨_, rfl⟩ | wrote
          · rfl
          · obtain ⟨target, value, root, new, rfl, isRoot, _, rfl⟩ := wrote
            have different : name ≠ root := by
              rintro rfl
              exact notAssigned target value List.mem_cons_self isRoot
            exact Table.get?_set_of_ne store new different

private theorem performAll_wellFormed {store : Store} (wellFormed : store.WellFormed)
    (actions : List Expr) : (performAll store actions).store.WellFormed := by
  induction actions generalizing store with
  | nil => exact wellFormed
  | cons action actions inductionHypothesis =>
      cases performed : action.perform store with
      | error fault =>
          rw [performAll_cons_error performed]
          exact wellFormed
      | ok result =>
          obtain ⟨after, written?⟩ := result
          rw [performAll_cons_ok performed]
          exact inductionHypothesis (Expr.perform_wellFormed wellFormed performed)

/-! ## Attempts -/

variable (refraction : Bool) (pass : Nat) (rule : Rule) (signature : Signature) (run : Run)

@[simp] theorem attempt_store : (attempt refraction pass rule signature run).1.store =
    (performAll run.store rule.actions).store := by
  rw [attempt]
  split <;> rfl

@[simp] theorem attempt_history : (attempt refraction pass rule signature run).1.history =
    recordAttempt refraction rule signature run.history := by
  rw [attempt]
  split <;> rfl

@[simp] theorem attempt_modified : (attempt refraction pass rule signature run).1.modified =
    (performAll run.store rule.actions).written.foldl noteWrite run.modified := by
  rw [attempt]
  split <;> rfl

theorem attempt_fired : (attempt refraction pass rule signature run).1.fired =
    if (performAll run.store rule.actions).fault?.isNone then run.fired ++ [rule.name]
    else run.fired := by
  rw [attempt]
  split <;> simp_all

theorem attempt_changed : (attempt refraction pass rule signature run).2 =
    ((performAll run.store rule.actions).fault?.isNone ||
      !(performAll run.store rule.actions).written.isEmpty) := by
  rw [attempt]
  split <;> simp_all

/-! ## Turns -/

/-- Whether a rule would be passed over because of its last attempt. -/
def Suppressed (history : History) (store : Store) : Prop :=
  isSuppressed refraction rule (Signature.ofRule rule store) history = true

/-- `TurnOf refraction pass rule run result` lists what the turn of a rule can lead to. -/
inductive TurnOf : Run × Bool → Prop
  | conditionFailed (fault : Expr.Fault) :
      rule.condition.evalCondition run.store = .error fault →
      TurnOf ({ run with failures := run.failures ++ [⟨rule.name, .condition, pass, fault⟩] }, false)
  | notHolding :
      ¬ rule.Holds run.store →
      TurnOf (run, false)
  | suppressed :
      rule.Holds run.store →
      Suppressed refraction rule run.history run.store →
      TurnOf (run, false)
  | attempted :
      rule.Holds run.store →
      ¬ Suppressed refraction rule run.history run.store →
      TurnOf (attempt refraction pass rule (Signature.ofRule rule run.store) run)

/-- Each turn is one of four. -/
theorem takeTurn_cases :
    TurnOf refraction pass rule run (takeTurn refraction pass rule run) := by
  rw [takeTurn]
  cases evaluated : rule.condition.evalCondition run.store with
  | error fault => exact .conditionFailed fault evaluated
  | ok outcome =>
      by_cases holds : outcome = some true
      · subst holds
        by_cases passedOver : Suppressed refraction rule run.history run.store
        · rw [Suppressed] at passedOver
          simp only [passedOver, if_true]
          exact .suppressed evaluated passedOver
        · rw [Suppressed] at passedOver
          simp only [passedOver, if_false, Bool.false_eq_true]
          exact .attempted evaluated passedOver
      · have notHolding : ¬ rule.Holds run.store := by
          intro isHolding
          rw [Rule.Holds, evaluated] at isHolding
          injection isHolding with same
          exact holds same
        split
        · next same => cases same
        · next same =>
            injection same with isTrue
            exact absurd isTrue holds
        · exact .notHolding notHolding

variable {refraction pass rule signature run} {rules : List Rule} {allowed made : Nat}

theorem takeTurn_of_suppressed (holds : rule.Holds run.store)
    (suppressed : Suppressed refraction rule run.history run.store) :
    takeTurn refraction pass rule run = (run, false) := by
  rw [takeTurn, holds]
  exact if_pos suppressed

theorem takeTurn_of_holds (holds : rule.Holds run.store)
    (notSuppressed : ¬ Suppressed refraction rule run.history run.store) :
    takeTurn refraction pass rule run =
      attempt refraction pass rule (Signature.ofRule rule run.store) run := by
  rw [takeTurn, holds]
  exact if_neg notSuppressed

/-- What holds of a store, and of every store that performing a rule's actions leads to, holds of
the store behind the turn of the rule. -/
theorem takeTurn_store {p : Store → Prop} (before : p run.store)
    (performed : p (performAll run.store rule.actions).store) :
    p (takeTurn refraction pass rule run).1.store := by
  have possible := takeTurn_cases refraction pass rule run
  generalize takeTurn refraction pass rule run = result at *
  cases possible with
  | attempted holds notSuppressed =>
      rw [attempt_store]
      exact performed
  | _ => exact before

/-- Turns keep stores well-formed. -/
theorem takeTurn_wellFormed (wellFormed : run.store.WellFormed) :
    (takeTurn refraction pass rule run).1.store.WellFormed :=
  takeTurn_store wellFormed (performAll_wellFormed wellFormed rule.actions)

/-! ## Passes -/

theorem takePass_cons :
    takePass refraction pass (rule :: rules) run =
      ((takePass refraction pass rules (takeTurn refraction pass rule run).1).1,
        (takeTurn refraction pass rule run).2 ||
          (takePass refraction pass rules (takeTurn refraction pass rule run).1).2) := rfl

/-- After a pass that changed something the next one is made, if one more is allowed. -/
theorem takePasses_of_changed (changed : (takePass refraction (made + 1) rules run).2 = true) :
    takePasses refraction rules (allowed + 1) made run =
      takePasses refraction rules allowed (made + 1)
        (takePass refraction (made + 1) rules run).1 := by
  rw [takePasses]
  split
  · next same => rw [same]
  · next same =>
      rw [same] at changed
      cases changed

/-- A pass that changed nothing is the last. -/
theorem takePasses_of_unchanged (unchanged : (takePass refraction (made + 1) rules run).2 = false) :
    takePasses refraction rules (allowed + 1) made run =
      ⟨(takePass refraction (made + 1) rules run).1, made + 1, false⟩ := by
  rw [takePasses]
  split
  · next same =>
      rw [same] at unchanged
      cases unchanged
  · next same => rw [same]

end Run

end Rulebook
