import Mathlib.Data.List.Nodup
import Rulebook.Proofs.Engine.Effect
import Rulebook.Proofs.Engine.InStep
import Rulebook.Proofs.Engine.Order
import Rulebook.Proofs.Engine.Refraction

/-!
# Dead rules

Dead rules. Where the check for conditions that cannot hold picks a condition out, it holds in no
store. A rule with such a condition does nothing at its turns but fail, so that a run of the other
rules alone is the same run, without those failures.
-/

namespace Rulebook

/-! ## Conditions that cannot hold -/

namespace Expr

variable {store : Store} {left right : Expr}

theorem boolOf_eq_ok {op : BinaryOp} {value : Value} {holds : Bool}
    (isBool : boolOf op value = .ok holds) : value = .bool holds := by
  cases value with
  | bool found => exact congrArg Value.bool (Except.ok.inj isBool)
  | _ => cases isBool

private theorem eval_and_eq_true (holds : (binary .and left right).eval store = .ok (.bool true)) :
    left.eval store = .ok (.bool true) ∧ right.eval store = .ok (.bool true) := by
  rw [eval] at holds
  obtain ⟨leftValue, leftEvaluated, holds⟩ := bind_eq_ok_iff.1 holds
  obtain ⟨leftHolds, leftIsBool, holds⟩ := bind_eq_ok_iff.1 holds
  cases leftHolds with
  | false => cases holds
  | true =>
      rw [if_pos rfl] at holds
      obtain ⟨rightValue, rightEvaluated, holds⟩ := bind_eq_ok_iff.1 holds
      obtain ⟨rightHolds, rightIsBool, holds⟩ := bind_eq_ok_iff.1 holds
      cases holds
      rw [leftEvaluated, rightEvaluated, boolOf_eq_ok leftIsBool, boolOf_eq_ok rightIsBool]
      exact ⟨rfl, rfl⟩

private theorem eval_or_eq_true (holds : (binary .or left right).eval store = .ok (.bool true)) :
    left.eval store = .ok (.bool true) ∨ right.eval store = .ok (.bool true) := by
  rw [eval] at holds
  obtain ⟨leftValue, leftEvaluated, holds⟩ := bind_eq_ok_iff.1 holds
  obtain ⟨leftHolds, leftIsBool, holds⟩ := bind_eq_ok_iff.1 holds
  cases leftHolds with
  | true => exact .inl (leftEvaluated.trans (congrArg Except.ok (boolOf_eq_ok leftIsBool)))
  | false =>
      rw [if_neg Bool.false_ne_true] at holds
      obtain ⟨rightValue, rightEvaluated, holds⟩ := bind_eq_ok_iff.1 holds
      obtain ⟨rightHolds, rightIsBool, holds⟩ := bind_eq_ok_iff.1 holds
      cases holds
      exact .inr (rightEvaluated.trans (congrArg Except.ok (boolOf_eq_ok rightIsBool)))

/-- A condition that the check picks out is true in no store. -/
theorem eval_ne_true_of_isAlwaysFalse {e : Expr} (alwaysFalse : e.isAlwaysFalse = true) :
    e.eval store ≠ .ok (.bool true) := by
  induction e using isAlwaysFalse.induct with
  | case1 holds =>
      rw [isAlwaysFalse, Bool.not_eq_true'] at alwaysFalse
      subst alwaysFalse
      rintro ⟨⟩
  | case2 holds =>
      rw [isAlwaysFalse] at alwaysFalse
      subst alwaysFalse
      rintro ⟨⟩
  | case3 left right leftHypothesis rightHypothesis =>
      rw [isAlwaysFalse, Bool.or_eq_true] at alwaysFalse
      intro holds
      obtain ⟨leftHolds, rightHolds⟩ := eval_and_eq_true holds
      rcases alwaysFalse with leftFalse | rightFalse
      · exact leftHypothesis leftFalse leftHolds
      · exact rightHypothesis rightFalse rightHolds
  | case4 left right leftHypothesis rightHypothesis =>
      rw [isAlwaysFalse, Bool.and_eq_true] at alwaysFalse
      intro holds
      rcases eval_or_eq_true holds with leftHolds | rightHolds
      · exact leftHypothesis alwaysFalse.1 leftHolds
      · exact rightHypothesis alwaysFalse.2 rightHolds
  | case5 e notBool notNegation notAnd notOr =>
      rw [isAlwaysFalse] at alwaysFalse
      · cases alwaysFalse
      · exact notBool
      · exact notNegation
      · exact notAnd
      · exact notOr

/-- A condition that is found to be always false never holds, whatever the facts are. -/
theorem evalCondition_ne_true_of_isAlwaysFalse {condition : Expr}
    (alwaysFalse : condition.isAlwaysFalse = true) :
    condition.evalCondition store ≠ .ok (some true) := by
  intro holds
  obtain ⟨value, evaluated, isTrue⟩ := bind_eq_ok_iff.1 holds
  split at isTrue
  · cases isTrue
    exact eval_ne_true_of_isAlwaysFalse alwaysFalse evaluated
  · cases isTrue

end Expr

/-- Whether the check for conditions that cannot hold picks a rule out. -/
def Rule.isDead (rule : Rule) : Bool :=
  rule.condition.isAlwaysFalse

theorem Rule.not_holds_of_isDead {rule : Rule} {store : Store} (dead : rule.isDead = true) :
    ¬ rule.Holds store :=
  Expr.evalCondition_ne_true_of_isAlwaysFalse dead

/-! ## Turns of dead rules -/

/-- Whether a failure is one of the condition of a rule that some names contain. -/
def Failure.isOfCondition (names : List String) (failure : Failure) : Bool :=
  decide (failure.part = .condition) && names.contains failure.rule

namespace Run

variable {refraction : Bool} {pass : Nat} {rule : Rule} {rules : List Rule} {names : List String}
  {run trimmed : Run}

/-- `Trimmed names run trimmed` means that two runs are the same but for the conditions of the rules
of some names, which have failed only in one of them. -/
structure Trimmed (names : List String) (run trimmed : Run) : Prop where
  store : trimmed.store = run.store
  history : ∀ name, name ∉ names → trimmed.history.get? name = run.history.get? name
  fired : trimmed.fired = run.fired
  failures : trimmed.failures = run.failures.filter fun failure => !failure.isOfCondition names
  modified : trimmed.modified = run.modified

/-- A turn of a dead rule adds nothing but a failure of its condition. -/
theorem Trimmed.takeTurn_dead (same : Trimmed names run trimmed) (refraction : Bool) (pass : Nat)
    (named : rule.name ∈ names) (dead : rule.isDead = true) :
    Trimmed names (takeTurn refraction pass rule run).1 trimmed ∧
      (takeTurn refraction pass rule run).2 = false := by
  have notHolding : ¬ rule.Holds run.store := Rule.not_holds_of_isDead dead
  have possible := takeTurn_cases refraction pass rule run
  generalize takeTurn refraction pass rule run = result at *
  cases possible with
  | conditionFailed fault failed =>
      refine ⟨⟨same.store, same.history, same.fired, ?_, same.modified⟩, rfl⟩
      have leftOut : Failure.isOfCondition names ⟨rule.name, .condition, pass, fault⟩ = true := by
        simp [Failure.isOfCondition, named]
      simp only [List.filter_append, List.filter_cons, leftOut]
      rw [same.failures]
      exact (List.append_nil _).symm
  | notHolding => exact ⟨same, rfl⟩
  | suppressed holds => exact absurd holds notHolding
  | attempted holds => exact absurd holds notHolding

theorem filter_failures (effect : Effect) (pass : Nat) (notNamed : rule.name ∉ names) :
    (effect.failures pass rule).filter (fun failure => !failure.isOfCondition names) =
      effect.failures pass rule := by
  apply List.filter_eq_self.2
  intro failure member
  obtain ⟨_, _, rfl⟩ := List.mem_map.1 member
  simp [Failure.isOfCondition, notNamed]

theorem Trimmed.takeTurn (same : Trimmed names run trimmed) (refraction : Bool) (pass : Nat)
    (notNamed : rule.name ∉ names) :
    InStep (Trimmed names) (takeTurn refraction pass rule run)
      (takeTurn refraction pass rule trimmed) := by
  rw [takeTurn_eq, takeTurn_eq, same.store, same.history rule.name notNamed]
  generalize effect refraction rule run.store (run.history.get? rule.name) = added
  refine ⟨⟨rfl, fun name notNamedToo => ?_, ?_, ?_, ?_⟩, rfl⟩
  · exact record_get?_congr rule rfl (same.history name notNamedToo)
  · simp only [Effect.addTo, same.fired]
  · simp only [Effect.addTo, List.filter_append, filter_failures added pass notNamed, same.failures]
  · simp only [Effect.addTo, same.modified]

/-! ## Passes and runs -/

/-- A pass that is also taken without some dead rules leaves the same apart from their failures. -/
theorem Trimmed.takePass (same : Trimmed names run trimmed) (refraction : Bool) (pass : Nat)
    (dead : ∀ rule ∈ rules, rule.name ∈ names → rule.isDead = true) :
    InStep (Trimmed names) (takePass refraction pass rules run)
      (takePass refraction pass (rules.filter fun rule => !names.contains rule.name) trimmed) := by
  induction rules generalizing run trimmed with
  | nil => exact ⟨same, rfl⟩
  | cons rule rules inductionHypothesis =>
      have deadLater : ∀ other ∈ rules, other.name ∈ names → other.isDead = true :=
        fun other member => dead other (List.mem_cons_of_mem rule member)
      by_cases named : rule.name ∈ names
      · have isDead : rule.isDead = true := dead rule List.mem_cons_self named
        obtain ⟨sameAfter, unchanged⟩ := same.takeTurn_dead refraction pass named isDead
        rw [List.filter_cons_of_neg (by simp [named]), takePass_cons, unchanged, Bool.false_or]
        exact inductionHypothesis sameAfter deadLater
      · have turn := same.takeTurn refraction pass named
        rw [List.filter_cons_of_pos (by simp [named])]
        exact inStep_cons turn (inductionHypothesis turn.related deadLater)

/-- A run of the rules that are left, where dead rules are taken out, is the run of all of them
without the failures of the dead ones. -/
theorem Trimmed.takePasses (same : Trimmed names run trimmed) (refraction : Bool)
    (dead : ∀ rule ∈ rules, rule.name ∈ names → rule.isDead = true) (allowed made : Nat) :
    let finished := takePasses refraction rules allowed made run
    let left := rules.filter fun rule => !names.contains rule.name
    let otherFinished := takePasses refraction left allowed made trimmed
    Trimmed names finished.run otherFinished.run ∧ finished.passes = otherFinished.passes ∧
      finished.boundReached = otherFinished.boundReached := by
  obtain ⟨sameLast, samePasses, sameEnd⟩ := takePasses_inStep allowed
    (fun step _ _ same => same.takePass refraction (made + step) dead) same
  exact ⟨sameLast, Nat.add_right_cancel samePasses, sameEnd⟩

end Run

/-! ## Dead rules that are reported -/

namespace Analysis

private theorem map_fst_zip_of_mapM {rules : List Rule} {footprints : List Footprint}
    (found : rules.mapM Footprint.ofRule? = some footprints) :
    (rules.zip footprints).map Prod.fst = rules := by
  have sameLength : rules.length = footprints.length := by
    induction rules generalizing footprints with
    | nil =>
        cases found
        rfl
    | cons rule rules inductionHypothesis =>
        rw [List.mapM_cons] at found
        obtain ⟨first, _, found⟩ := Option.bind_eq_some_iff.1 found
        obtain ⟨others, foundLater, found⟩ := Option.bind_eq_some_iff.1 found
        cases found
        rw [List.length_cons, List.length_cons, inductionHypothesis foundLater]
  exact List.map_fst_zip (Nat.le_of_eq sameLength)

/-- The rules that an analysis reports as dead are those that the check picks out. -/
theorem dead_eq_of_ofRules? {rules : List Rule} {analysis : Analysis}
    (analysed : ofRules? rules = some analysis) :
    analysis.dead = ruleNames (rules.filter Rule.isDead) := by
  obtain ⟨footprints, found, analysed⟩ := Option.bind_eq_some_iff.1 analysed
  cases analysed
  have sameRules := map_fst_zip_of_mapM found
  show namesOf isDead (rules.zip footprints) = _
  conv_rhs => rw [← sameRules, List.filter_map, ruleNames, List.map_map]
  rfl

end Analysis

namespace Engine

def deadNames (engine : Engine) : List String :=
  ruleNames (engine.base.rules.filter Rule.isDead)

theorem perm_deadNames_of_analyze? {engine : Engine} {analysis : Analysis}
    (analysed : engine.analyze? = some analysis) : analysis.dead.Perm engine.deadNames := by
  rw [Analysis.dead_eq_of_ofRules? analysed]
  exact (engine.base.perm_bySalience.filter Rule.isDead).map Rule.name

private theorem isDead_of_mem_deadNames {engine : Engine} {rule : Rule}
    (member : rule ∈ engine.base.rules) (named : rule.name ∈ engine.deadNames) :
    rule.isDead = true := by
  obtain ⟨other, isDead, sameName⟩ := List.mem_map.1 named
  obtain ⟨otherMember, dead⟩ := List.mem_filter.1 isDead
  obtain rfl : other = rule :=
    List.inj_on_of_nodup_map engine.base.distinct otherMember member sameName
  exact dead

/-! ## Engines without some of their rules -/

def removeRules (engine : Engine) : List String → Except Fault Engine
  | [] => .ok engine
  | name :: names => do
    let (after, _) ← engine.removeRule name
    after.removeRules names

/-- `Without names engine trimmed` means that an engine has the rules and the attempts of another,
except for those of some names. -/
structure Without (names : List String) (engine trimmed : Engine) : Prop where
  settings : trimmed.settings = engine.settings
  phase : trimmed.phase = engine.phase
  rules : trimmed.base.rules = engine.base.rules.filter fun rule => !names.contains rule.name
  history : ∀ identity name, name ∉ names →
    (trimmed.historyOf identity).get? name = (engine.historyOf identity).get? name

private theorem removeRules_of_idle {engine : Engine} (idle : engine.phase.isRunning = false)
    (names : List String) :
    ∃ trimmed, engine.removeRules names = .ok trimmed ∧ Without names engine trimmed := by
  induction names generalizing engine with
  | nil => exact ⟨engine, rfl, rfl, rfl, by simp, fun _ _ _ => rfl⟩
  | cons name names inductionHypothesis =>
      let after := ({ engine with base := engine.base.erase name } : Engine).forgetRule name
      have removed : engine.removeRule name = .ok (after, engine.base.get? name) := by
        rw [removeRule, whenIdle, idle]
        rfl
      have idleAfter : after.phase.isRunning = false := idle
      obtain ⟨trimmed, removedLater, without⟩ := inductionHypothesis idleAfter
      refine ⟨trimmed, ?_, without.settings, without.phase, ?_, fun identity other notNamed => ?_⟩
      · rw [removeRules, removed]
        exact removedLater
      · have rulesAfter :
            after.base.rules = engine.base.rules.filter fun rule => rule.name != name := rfl
        rw [without.rules, rulesAfter, List.filter_filter]
        refine List.filter_congr fun rule _ => ?_
        rw [List.contains_cons, Bool.not_or, Bool.and_comm]
        rfl
      · obtain ⟨different, notNamedLater⟩ := not_or.1 (mt List.mem_cons.2 notNamed)
        rw [without.history identity other notNamedLater, historyOf_forgetRule_get?,
          if_neg different]
        rfl

/-- A condition that the check picks out holds in no store, and to take all rules with such
conditions away changes nothing in a run, except that the failures of these conditions are not
reported. -/
theorem execute_removeRules_deadNames (engine : Engine) (identity : String) (store : Store)
    (idle : engine.phase.isRunning = false) :
    (∀ (condition : Expr) (anyStore : Store), condition.isAlwaysFalse = true →
        condition.evalCondition anyStore ≠ .ok (some true)) ∧
      ∃ trimmed after storeAfter report trimmedAfter trimmedReport,
        engine.removeRules engine.deadNames = .ok trimmed ∧
          engine.execute identity store = .ok (after, storeAfter, report) ∧
          trimmed.execute identity store = .ok (trimmedAfter, storeAfter, trimmedReport) ∧
          trimmedReport =
            { report with
              failures := report.failures.filter fun failure =>
                !failure.isOfCondition engine.deadNames } := by
  refine ⟨fun condition anyStore => Expr.evalCondition_ne_true_of_isAlwaysFalse, ?_⟩
  obtain ⟨trimmed, removed, without⟩ := removeRules_of_idle idle engine.deadNames
  have idleTrimmed : trimmed.phase.isRunning = false := by
    rw [without.phase]
    exact idle
  have dead : ∀ rule ∈ engine.base.bySalience, rule.name ∈ engine.deadNames → rule.isDead = true :=
    fun rule member => isDead_of_mem_deadNames (engine.base.perm_bySalience.mem_iff.1 member)
  have sameStart : Run.Trimmed engine.deadNames (Run.start store (engine.historyOf identity))
      (Run.start store (trimmed.historyOf identity)) :=
    ⟨rfl, without.history identity, rfl, rfl, rfl⟩
  obtain ⟨same, samePasses, sameEnd⟩ :=
    sameStart.takePasses engine.settings.refraction dead engine.settings.maxPasses 0
  have trimmedRun : trimmed.runOn identity store =
      Run.takePasses engine.settings.refraction
        (engine.base.bySalience.filter fun rule => !engine.deadNames.contains rule.name)
        engine.settings.maxPasses 0 (Run.start store (trimmed.historyOf identity)) := by
    rw [runOn, without.settings, RuleBase.bySalience_of_filter without.rules]
  rw [← trimmedRun] at same samePasses sameEnd
  refine ⟨trimmed, _, _, _, _, _, removed, execute_of_idle idle,
    execute_eq_ok_iff.2 ⟨idleTrimmed, rfl, same.store, rfl⟩, ?_⟩
  rw [Report.ofFinished, same.fired, same.failures, same.modified, ← samePasses, ← sameEnd]
  rfl

/-- A rule whose condition may fail but cannot hold, in front of one that can fire. -/
private def withDead : Engine :=
  { new .standard with
    base := ⟨.reject,
      [.undescribed "Dead" 0 (.binary .and (.fact "x") (.bool false))
        [.assign (.fact "y") (.bool false)],
        .undescribed "Live" 0 (.bool true) [.assign (.fact "y") (.bool true)]],
      by decide⟩ }

theorem execute_removeRules_deadNames_withDead :
    withDead.deadNames = ["Dead"] ∧
      (Expr.binary .and (.fact "x") (.bool false)).evalCondition ∅ ≠ .ok (some true) ∧
      ∃ trimmed after storeAfter report trimmedAfter trimmedReport,
        withDead.removeRules ["Dead"] = .ok trimmed ∧
          withDead.execute "facts" ∅ = .ok (after, storeAfter, report) ∧
          trimmed.execute "facts" ∅ = .ok (trimmedAfter, storeAfter, trimmedReport) ∧
          trimmedReport =
            { report with
              failures := report.failures.filter fun failure =>
                !failure.isOfCondition ["Dead"] } := by
  obtain ⟨neverHolds, sameRun⟩ := execute_removeRules_deadNames withDead "facts" ∅ rfl
  exact ⟨rfl, neverHolds _ ∅ rfl, sameRun⟩

end Engine

end Rulebook
