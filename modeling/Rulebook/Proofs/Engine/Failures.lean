import Rulebook.Proofs.Engine.Effect
import Rulebook.Proofs.Engine.Refraction
import Rulebook.Proofs.Expr.Faults
import Rulebook.Proofs.Rule.Parsed

/-!
# Failures of a run

Where the failures of a run come from: each is a fault with which the condition or an action of one
of the rules ends on some facts. What the rules of an engine cannot fail with is therefore never
reported, and an engine takes no rule with an assignment in its condition.
-/

namespace Rulebook

/-- `ArisesFrom rules failure` means that a failure is one of a rule's condition, or of one of its
actions, on some facts. -/
inductive Failure.ArisesFrom (rules : List Rule) : Failure → Prop
  | condition {rule : Rule} {store : Store} {fault : Expr.Fault} (pass : Nat) :
      rule ∈ rules →
      rule.condition.evalCondition store = .error fault →
      ArisesFrom rules ⟨rule.name, .condition, pass, fault⟩
  | action {rule : Rule} {action : Expr} {store : Store} {fault : Expr.Fault} (pass : Nat) :
      rule ∈ rules →
      action ∈ rule.actions →
      action.perform store = .error fault →
      ArisesFrom rules ⟨rule.name, .action, pass, fault⟩

/-! ## Faults of assignments -/

section Assignments

variable {rules : List Rule} {failure : Failure}

theorem code_ne_of_assignsRightly {α : Type} {computed : Except Expr.Fault α} {fault : Expr.Fault}
    (rightly : Expr.AssignsRightly computed) (failed : computed = .error fault) :
    fault.code ≠ "invalid_assignment" := by
  intro isClass
  have isOfAssignment := Expr.Fault.code_eq_iff.1 isClass
  rw [rightly fault failed] at isOfAssignment
  cases isOfAssignment

/-- No condition that holds no assignment fails by one. -/
theorem Failure.ArisesFrom.code_ne_of_condition (arises : failure.ArisesFrom rules)
    (free : ∀ rule ∈ rules, rule.condition.hasAssignment = false)
    (ofCondition : failure.part = .condition) : failure.fault.code ≠ "invalid_assignment" := by
  cases arises with
  | condition pass registered failed =>
      exact code_ne_of_assignsRightly (Expr.assignsRightly_evalCondition (free _ registered)) failed
  | action => cases ofCondition

theorem Failure.ArisesFrom.code_ne_of_parsed (arises : failure.ArisesFrom rules)
    (parsed : ∀ rule ∈ rules, rule.IsParsed) : failure.fault.code ≠ "invalid_assignment" := by
  have free : ∀ rule ∈ rules, rule.condition.hasAssignment = false :=
    fun rule registered => (parsed rule registered).assigns_on_top.1
  cases arises with
  | condition pass registered failed =>
      exact code_ne_of_condition (.condition pass registered failed) free rfl
  | action pass registered inActions failed =>
      have isAction := (parsed _ registered).assigns_on_top.2 _ inActions
      cases isAction with
      | evaluated actionFree =>
          exact code_ne_of_assignsRightly (Expr.assignsRightly_perform actionFree) failed
      | assigned path targetFree valueFree =>
          exact code_ne_of_assignsRightly
            (Expr.assignsRightly_perform_assign path targetFree valueFree) failed

end Assignments

namespace Run

variable {refraction : Bool} {pass : Nat} {rule : Rule} {rules : List Rule} {run : Run}

/-! ## Turns -/

private theorem exists_perform_of_fault? {store : Store} {actions : List Expr} {fault : Expr.Fault}
    (failed : (performAll store actions).fault? = some fault) :
    ∃ action ∈ actions, ∃ reached : Store, action.perform reached = .error fault := by
  induction actions generalizing store with
  | nil => cases failed
  | cons action actions inductionHypothesis =>
      cases performed : action.perform store with
      | error other =>
          rw [performAll_cons_error performed] at failed
          injection failed with same
          rw [same] at performed
          exact ⟨action, List.mem_cons_self, store, performed⟩
      | ok result =>
          obtain ⟨after, written?⟩ := result
          rw [performAll_cons_ok performed] at failed
          obtain ⟨later, member, reached, ended⟩ := inductionHypothesis failed
          exact ⟨later, List.mem_cons_of_mem action member, reached, ended⟩

private theorem arisesFrom_of_mem_failures {store : Store} {last? : Option Signature} {failure : Failure}
    (registered : rule ∈ rules)
    (member : failure ∈ (effect refraction rule store last?).failures pass rule) :
    failure.ArisesFrom rules := by
  obtain ⟨⟨part, fault⟩, isFailure, same⟩ := List.mem_map.1 member
  rw [Option.mem_toList] at isFailure
  subst same
  rcases effect_cases refraction rule store last? with attempted | unattempted
  · rw [attempted] at isFailure
    obtain ⟨other, failed, same⟩ := Option.map_eq_some_iff.1 isFailure
    cases same
    obtain ⟨action, inActions, reached, ended⟩ := exists_perform_of_fault? failed
    exact .action pass registered inActions ended
  · rw [unattempted] at isFailure
    obtain ⟨other, failed, same⟩ := Option.map_eq_some_iff.1 isFailure
    cases same
    exact .condition pass registered (eq_error_of_fault? failed)

private theorem arisesFrom_takeTurn (registered : rule ∈ rules)
    (arise : ∀ failure ∈ run.failures, failure.ArisesFrom rules) :
    ∀ failure ∈ (takeTurn refraction pass rule run).1.failures, failure.ArisesFrom rules := by
  rw [takeTurn_eq]
  intro failure member
  rcases List.mem_append.1 member with isKnown | isNew
  · exact arise failure isKnown
  · exact arisesFrom_of_mem_failures registered isNew

end Run

namespace Engine

variable {engine after : Engine}

private theorem arisesFrom_runOn (engine : Engine) (identity : String) (store : Store) :
    ∀ failure ∈ (engine.runOn identity store).run.failures,
      failure.ArisesFrom engine.base.rules := by
  have taken := engine.turns_runOn identity store
  have inTheEnd := taken.invariant
    (p := fun reached => ∀ failure ∈ reached.failures, failure.ArisesFrom engine.base.rules)
    (fun failure member => absurd member List.not_mem_nil) fun pass rule member reached arise =>
      Run.arisesFrom_takeTurn (engine.base.perm_bySalience.mem_iff.1 member) arise
  exact inTheEnd.1

/-! ## Engines that are built by adding rules -/

/-- Whether an engine came about from a new one by what can be done with an engine: rules are added
one by one or by the text of several, others are taken away, and there are runs between. -/
inductive Built : Engine → Prop
  | new (settings : Settings) :
      Built (.new settings)
  | addRule {engine after : Engine} {rule : Rule} :
      Built engine →
      engine.addRule rule = .ok after →
      Built after
  | addDocument {engine : Engine} (text : String) :
      Built engine →
      Built (engine.addDocument text).1
  | removeRule {engine after : Engine} {name : String} {removed? : Option Rule} :
      Built engine →
      engine.removeRule name = .ok (after, removed?) →
      Built after
  | reset {engine after : Engine} :
      Built engine →
      engine.reset = .ok after →
      Built after
  | execute {engine after : Engine} {identity : String} {store storeAfter : Store}
      {report : Report} :
      Built engine →
      engine.execute identity store = .ok (after, storeAfter, report) →
      Built after
  | forgetStore {engine : Engine} (identity : String) :
      Built engine →
      Built (engine.forgetStore identity)

private theorem addRules_invariant {p : Engine → Prop} {rules : List Rule} (start : p engine)
    (kept : ∀ reached rule after, p reached → rule ∈ rules → reached.addRule rule = .ok after →
      p after) :
    p (engine.addRules rules).1 := by
  induction rules generalizing engine with
  | nil => exact start
  | cons rule rules inductionHypothesis =>
      rw [addRules]
      cases added : engine.addRule rule with
      | error fault => exact start
      | ok after =>
          apply inductionHypothesis (kept engine rule after start List.mem_cons_self added)
          intro reached later afterLater holds member
          exact kept reached later afterLater holds (List.mem_cons_of_mem rule member)

private theorem engine_addDocument {text : String} {rules : List Rule}
    (read : Rule.parseAll text = .ok rules) :
    (engine.addDocument text).1 = (engine.addRules rules).1 := by
  simp only [addDocument, read]
  split
  · next same => rw [same]
  · next same => rw [same]

/-- What holds of an engine, and goes on to hold when a rule of a document is added, holds when the
document is added. -/
theorem addDocument_invariant {p : Engine → Prop} {text : String} (start : p engine)
    (kept : ∀ reached rule after, p reached → rule ∈ (Document.parse text).rules →
      reached.addRule rule = .ok after → p after) :
    p (engine.addDocument text).1 := by
  cases read : Rule.parseAll text with
  | error fault =>
      rw [addDocument, read]
      exact start
  | ok rules =>
      rw [engine_addDocument read]
      rw [Document.parseAll_eq_ok_iff.1 read] at kept
      exact addRules_invariant start kept

theorem mem_rules_of_addRule {rule other : Rule} (added : engine.addRule rule = .ok after)
    (member : other ∈ after.base.rules) : other = rule ∨ other ∈ engine.base.rules := by
  obtain ⟨_, _, _, base, isAdded, same⟩ := addRule_eq_ok added
  rw [← same] at member
  rcases mem_rules_of_add? isAdded member with isNew | ⟨isOld, _⟩
  · exact .inl isNew
  · exact .inr isOld

/-- An engine has the rules that it had, and some of those of the document that is added. -/
theorem mem_rules_of_addDocument {text : String} :
    ∀ rule ∈ (engine.addDocument text).1.base.rules,
      rule ∈ engine.base.rules ∨ rule ∈ (Document.parse text).rules := by
  apply addDocument_invariant (p := fun reached => ∀ rule ∈ reached.base.rules,
    rule ∈ engine.base.rules ∨ rule ∈ (Document.parse text).rules)
  · exact fun rule member => .inl member
  · intro reached rule after among isRead added other member
    rcases mem_rules_of_addRule added member with isNew | isOld
    · rw [isNew]
      exact .inr isRead
    · exact among other isOld

/-- An engine that is not running and has no assignment in the condition of a rule. -/
structure Sound (engine : Engine) : Prop where
  idle : engine.phase.isRunning = false
  free : ∀ rule ∈ engine.base.rules, rule.condition.hasAssignment = false

theorem Sound.addRule {rule : Rule} (sound : engine.Sound)
    (added : engine.addRule rule = .ok after) : after.Sound := by
  obtain ⟨idle, _, free, base, _, same⟩ := addRule_eq_ok added
  constructor
  · rw [← same]
    exact idle
  · intro other member
    rcases mem_rules_of_addRule added member with isNew | isOld
    · rw [isNew]
      exact free
    · exact sound.free other isOld

/-- Every engine that was built by its own operations is sound. -/
theorem Built.sound (built : engine.Built) : engine.Sound := by
  induction built with
  | new settings => exact ⟨rfl, fun rule member => absurd member List.not_mem_nil⟩
  | addRule _ added sound => exact sound.addRule added
  | addDocument text _ sound =>
      exact addDocument_invariant sound fun reached rule after soundHere _ added =>
        soundHere.addRule added
  | removeRule _ removed sound =>
      obtain ⟨_, _, same⟩ := removeRule_eq_ok removed
      rw [← same]
      exact ⟨sound.idle, fun rule member => sound.free rule (List.mem_of_mem_filter member)⟩
  | reset _ wasReset sound =>
      obtain ⟨_, same⟩ := reset_eq_ok wasReset
      rw [← same]
      exact ⟨rfl, sound.free⟩
  | execute _ executed sound =>
      obtain ⟨_, same, _, _⟩ := execute_eq_ok_iff.1 executed
      rw [← same]
      exact ⟨rfl, sound.free⟩
  | forgetStore identity _ sound => exact ⟨sound.idle, sound.free⟩

/-! ## Runs without faults of assignments -/

/-- Assignments are performed and never evaluated. In a rule that is read from a text they stand
only at the top of actions, and write to paths. No run of an engine whose rules were added to it
complains of an assignment in a condition; where all rules were read from texts, none complains of
one at all. -/
theorem assignments_never_evaluated :
    (∀ rule : Rule, rule.IsParsed →
      rule.condition.hasAssignment = false ∧
        ∀ action ∈ rule.actions,
          (∀ part ∈ action.children, part.hasAssignment = false) ∧
            ∀ target value, action = .assign target value → target.isPath = true) ∧
    ∀ (engine : Engine) (identity : String) (store : Store), engine.Built →
      ∃ after storeAfter report,
        engine.execute identity store = .ok (after, storeAfter, report) ∧
          (∀ failure ∈ report.failures, failure.part = .condition →
            failure.fault.code ≠ "invalid_assignment") ∧
          ((∀ rule ∈ engine.base.rules, rule.IsParsed) →
            ∀ failure ∈ report.failures, failure.fault.code ≠ "invalid_assignment") := by
  constructor
  · intro rule parsed
    obtain ⟨free, areActions⟩ := parsed.assigns_on_top
    refine ⟨free, fun action member => ?_⟩
    cases areActions action member with
    | evaluated actionFree =>
        refine ⟨(Expr.hasAssignment_eq_false_iff.1 actionFree).2, fun target value isAssign => ?_⟩
        rw [isAssign, Expr.hasAssignment_assign] at actionFree
        cases actionFree
    | assigned path targetFree valueFree =>
        refine ⟨by simp [Expr.children, targetFree, valueFree], fun target value isAssign => ?_⟩
        injection isAssign with sameTarget
        exact sameTarget ▸ path
  · intro engine identity store built
    have arise := engine.arisesFrom_runOn identity store
    refine ⟨_, _, _, execute_of_idle built.sound.idle, fun failure member => ?_,
      fun parsed failure member => ?_⟩
    · exact (arise failure member).code_ne_of_condition built.sound.free
    · exact (arise failure member).code_ne_of_parsed parsed

/-- The text of a rule that assigns a fact that is not there. -/
private def fillText : String :=
  "rule fill \x7b when true then total = missing; \x7d"

private def fromText : Engine :=
  ((new .standard).addDocument fillText).1

theorem assignments_never_evaluated_fromText :
    fromText.Built ∧
      (∀ rule ∈ fromText.base.rules, rule.IsParsed ∧ rule.condition.hasAssignment = false) ∧
      ∃ after storeAfter report,
        fromText.execute "facts" ∅ = .ok (after, storeAfter, report) ∧
          (report.failures.map fun failure => (failure.part, failure.fault.code)) =
            [(.action, "unknown_variable")] ∧
          ∀ failure ∈ report.failures, failure.fault.code ≠ "invalid_assignment" := by
  have built : fromText.Built := .addDocument fillText (.new .standard)
  have parsed : ∀ rule ∈ fromText.base.rules, rule.IsParsed := by
    intro rule member
    rcases mem_rules_of_addDocument rule member with isOld | isRead
    · cases isOld
    · exact .inr ⟨fillText, isRead⟩
  obtain ⟨onTop, runs⟩ := assignments_never_evaluated
  obtain ⟨after, storeAfter, report, executed, _, ofParsed⟩ := runs fromText "facts" ∅ built
  have failures : (report.failures.map fun failure => (failure.part, failure.fault.code)) =
      [(.action, "unknown_variable")] := by
    rw [← (execute_eq_ok_iff.1 executed).2.2.2]
    decide +kernel
  refine ⟨built, fun rule member => ?_, after, storeAfter, report, executed, failures,
    ofParsed parsed⟩
  exact ⟨parsed rule member, (onTop rule (parsed rule member)).1⟩

end Engine

end Rulebook
