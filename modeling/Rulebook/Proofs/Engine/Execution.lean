import Rulebook.Engine.Basic
import Rulebook.Proofs.Engine.Trace

/-!
# Execution

What is left of an engine when its rules were changed, its attempts were forgotten or a run ended:
the attempts on each store, and the rules in the order of their turns.
-/

namespace Rulebook

theorem RuleBase.perm_bySalience (base : RuleBase) : base.bySalience.Perm base.rules :=
  List.mergeSort_perm _ _

theorem RuleBase.nodup_bySalience (base : RuleBase) : (ruleNames base.bySalience).Nodup :=
  (base.perm_bySalience.map Rule.name).nodup_iff.2 base.distinct

namespace Engine

variable {engine after : Engine} {identity : String} {store storeAfter : Store} {report : Report}

/-! ## Changes between runs -/

/-- A rule is taken up between runs alone, with a name and without an assignment in its condition.
What was known of its name is forgotten. -/
theorem addRule_eq_ok {rule : Rule} (added : engine.addRule rule = .ok after) :
    engine.phase.isRunning = false ∧ rule.name.isEmpty = false ∧
      rule.condition.hasAssignment = false ∧
      ∃ base, engine.base.add? rule = some base ∧
        ({ engine with base := base } : Engine).forgetRule rule.name = after := by
  rw [addRule, whenIdle] at added
  split at added
  · cases added
  · next idle =>
      rw [addIdle] at added
      split at added
      · cases added
      · next named =>
          split at added
          · cases added
          · next free =>
              refine ⟨Bool.eq_false_iff.2 idle, Bool.eq_false_iff.2 named,
                Bool.eq_false_iff.2 free, ?_⟩
              split at added
              · cases added
              · next base isAdded =>
                  injection added with same
                  exact ⟨base, isAdded, same⟩

theorem removeRule_eq_ok {name : String} {removed? : Option Rule}
    (removed : engine.removeRule name = .ok (after, removed?)) :
    engine.phase.isRunning = false ∧ engine.base.get? name = removed? ∧
      ({ engine with base := engine.base.erase name } : Engine).forgetRule name = after := by
  rw [removeRule, whenIdle] at removed
  split at removed
  · cases removed
  · next idle =>
      injection removed with same
      injection same with sameEngine sameRule
      exact ⟨Bool.eq_false_iff.2 idle, sameRule, sameEngine⟩

theorem reset_eq_ok (wasReset : engine.reset = .ok after) :
    engine.phase.isRunning = false ∧
      ({ engine with histories := ∅, phase := .ready } : Engine) = after := by
  rw [reset, whenIdle] at wasReset
  split at wasReset
  · cases wasReset
  · next idle =>
      injection wasReset with same
      exact ⟨Bool.eq_false_iff.2 idle, same⟩

/-! ## Attempts that are forgotten -/

theorem historyOf_forgetRule (engine : Engine) (name identity : String) :
    (engine.forgetRule name).historyOf identity = (engine.historyOf identity).erase name := by
  rw [historyOf, forgetRule, Table.get?_map, historyOf]
  cases engine.histories.get? identity <;> rfl

theorem historyOf_forgetStore (engine : Engine) (identity : String) :
    (engine.forgetStore identity).historyOf identity = ∅ := by
  rw [historyOf, forgetStore, Table.get?_erase_self, Option.getD_none]

theorem historyOf_forgetStore_of_ne (engine : Engine) {other : String}
    (different : other ≠ identity) :
    (engine.forgetStore identity).historyOf other = engine.historyOf other := by
  rw [historyOf, forgetStore, Table.get?_erase_of_ne _ different, historyOf]

/-! ## Runs -/

def runOn (engine : Engine) (identity : String) (store : Store) : Run.Finished :=
  Run.takePasses engine.settings.refraction engine.base.bySalience engine.settings.maxPasses 0
    (Run.start store (engine.historyOf identity))

def turnsOn (engine : Engine) (identity : String) (store : Store) : List Turn :=
  Run.runTurns engine.settings.refraction engine.base.bySalience engine.settings.maxPasses 0
    (Run.start store (engine.historyOf identity))

/-- An execution takes the turns of the rules in the order of their salience. -/
theorem turns_runOn (engine : Engine) (identity : String) (store : Store) :
    Run.Turns engine.settings.refraction engine.base.bySalience
      (Run.start store (engine.historyOf identity)) (engine.turnsOn identity store)
      (engine.runOn identity store).run :=
  Run.turns_takePasses

def ranOn (engine : Engine) (identity : String) (store : Store) : Engine :=
  { engine with
    phase := .done
    histories := engine.histories.set identity (engine.runOn identity store).run.history }

/-- An engine without a run going on always runs its rules to an end. -/
theorem execute_of_idle (idle : engine.phase.isRunning = false) :
    engine.execute identity store =
      .ok (engine.ranOn identity store, (engine.runOn identity store).run.store,
        .ofFinished (engine.runOn identity store)) := by
  rw [execute, whenIdle, idle]
  rfl

/-- An execution succeeds exactly if no other is running, and then it gives the run of the engine.
-/
theorem execute_eq_ok_iff :
    engine.execute identity store = .ok (after, storeAfter, report) ↔
      engine.phase.isRunning = false ∧ engine.ranOn identity store = after ∧
        (engine.runOn identity store).run.store = storeAfter ∧
        Report.ofFinished (engine.runOn identity store) = report := by
  cases idle : engine.phase.isRunning with
  | true => simp [execute, whenIdle, idle]
  | false => simp [execute_of_idle idle]

theorem historyOf_ranOn :
    (engine.ranOn identity store).historyOf identity =
      (engine.runOn identity store).run.history := by
  rw [historyOf, ranOn, Table.get?_set_self, Option.getD_some]

theorem runOn_ranOn (other : Store) :
    (engine.ranOn identity store).runOn identity other =
      Run.takePasses engine.settings.refraction engine.base.bySalience engine.settings.maxPasses 0
        (Run.start other (engine.runOn identity store).run.history) := by
  rw [runOn, historyOf_ranOn]
  rfl

theorem historyOf_ranOn_of_ne {other : String} (different : other ≠ identity) :
    (engine.ranOn identity store).historyOf other = engine.historyOf other := by
  rw [historyOf, ranOn, Table.get?_set_of_ne _ _ different, historyOf]

end Engine

end Rulebook
