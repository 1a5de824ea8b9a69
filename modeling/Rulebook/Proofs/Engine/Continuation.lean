import Rulebook.Proofs.Engine.Effect
import Rulebook.Proofs.Engine.InStep
import Rulebook.Proofs.Engine.Rest

/-!
# Runs that go on

Runs that go on where others have ended. What a turn does depends neither on the number of the pass
nor on what was reported before, so a run that was cut off at its bound is continued by the next run
on the same facts. Where it came to rest instead, the next run changes nothing. A run under one
bound and then a run under another are therefore one run under the sum of both.
-/

namespace Rulebook

namespace Run

variable {refraction : Bool} {rules : List Rule} {run other : Run} {earlier : List String}

/-! ## Turns and passes -/

/-- `Continues earlier run other` means that a run, in which some rules had fired earlier, is at the
same point as another that has begun since. -/
structure Continues (earlier : List String) (run other : Run) : Prop where
  store : run.store = other.store
  history : run.history = other.history
  fired : run.fired = earlier ++ other.fired

private theorem continues_start (run : Run) :
    Continues run.fired run (start run.store run.history) :=
  ⟨rfl, rfl, (List.append_nil run.fired).symm⟩

theorem Continues.takeTurn (continues : Continues earlier run other) (refraction : Bool)
    (pass otherPass : Nat) (rule : Rule) :
    InStep (Continues earlier) (takeTurn refraction pass rule run)
      (takeTurn refraction otherPass rule other) := by
  obtain ⟨sameStore, sameHistory, firedEarlier⟩ := continues
  rw [takeTurn_eq, takeTurn_eq, sameStore, sameHistory]
  refine ⟨⟨rfl, ?_, ?_⟩, rfl⟩
  · simp only [Effect.addTo, sameHistory]
  · simp only [Effect.addTo, firedEarlier, List.append_assoc]

theorem Continues.takePass (continues : Continues earlier run other) (refraction : Bool)
    (rules : List Rule) (pass otherPass : Nat) :
    InStep (Continues earlier) (takePass refraction pass rules run)
      (takePass refraction otherPass rules other) :=
  inStep_takePass
    (fun rule _ _ _ continues => continues.takeTurn refraction pass otherPass rule) continues

theorem Continues.takePasses (continues : Continues earlier run other) (refraction : Bool)
    (rules : List Rule) (allowed made otherMade : Nat) :
    Continues earlier (takePasses refraction rules allowed made run).run
        (takePasses refraction rules allowed otherMade other).run ∧
      (takePasses refraction rules allowed made run).boundReached =
        (takePasses refraction rules allowed otherMade other).boundReached := by
  obtain ⟨continuesLast, -, sameEnd⟩ := takePasses_inStep allowed
    (fun step _ _ continues =>
      continues.takePass refraction rules (made + step) (otherMade + step)) continues
  exact ⟨continuesLast, sameEnd⟩

/-! ## Bounds -/

/-- A run that was cut off goes on under a greater bound. -/
theorem takePasses_add_of_boundReached {first : Nat} (more made : Nat)
    (cutOff : (takePasses refraction rules first made run).boundReached = true) :
    takePasses refraction rules (first + more) made run =
      takePasses refraction rules more (takePasses refraction rules first made run).passes
        (takePasses refraction rules first made run).run := by
  induction first generalizing made run with
  | zero =>
      rw [Nat.zero_add]
      rfl
  | succ first inductionHypothesis =>
      rw [Nat.succ_add_eq_add_succ]
      cases changed : (takePass refraction (made + 1) rules run).2 with
      | true =>
          rw [takePasses_of_changed changed] at cutOff ⊢
          rw [← inductionHypothesis (made + 1) cutOff]
          exact takePasses_of_changed changed
      | false =>
          rw [takePasses_of_unchanged changed] at cutOff
          cases cutOff

/-- A run that came to rest ends as it does under every greater bound. -/
theorem takePasses_add_of_atRest {first : Nat} (more made : Nat)
    (atRest : (takePasses refraction rules first made run).boundReached = false) :
    takePasses refraction rules (first + more) made run =
      takePasses refraction rules first made run := by
  induction first generalizing made run with
  | zero => cases atRest
  | succ first inductionHypothesis =>
      rw [Nat.succ_add_eq_add_succ]
      cases changed : (takePass refraction (made + 1) rules run).2 with
      | true =>
          rw [takePasses_of_changed changed] at atRest ⊢
          rw [← inductionHypothesis (made + 1) atRest]
          exact takePasses_of_changed changed
      | false =>
          rw [takePasses_of_unchanged changed]
          exact takePasses_of_unchanged changed

/-- A run under one bound, and on its facts and attempts a run under another, make one run under the
sum of both. -/
theorem takePasses_then_takePasses (refraction : Bool) (distinct : (ruleNames rules).Nodup)
    (store : Store) (history : History) (first : Nat) {more : Nat} (positive : 0 < more) :
    let before := takePasses refraction rules first 0 (start store history)
    let behind := takePasses refraction rules more 0 (start before.run.store before.run.history)
    let whole := takePasses refraction rules (first + more) 0 (start store history)
    whole.run.store = behind.run.store ∧
      whole.run.fired = before.run.fired ++ behind.run.fired ∧
      whole.boundReached = behind.boundReached := by
  intro before behind whole
  cases ended : before.boundReached with
  | true =>
      have goesOn : whole = takePasses refraction rules more before.passes before.run :=
        takePasses_add_of_boundReached more 0 ended
      obtain ⟨continues, sameEnd⟩ :=
        (continues_start before.run).takePasses refraction rules more before.passes 0
      rw [goesOn]
      exact ⟨continues.store, continues.fired, sameEnd⟩
  | false =>
      have same : whole = before := takePasses_add_of_atRest more 0 ended
      obtain ⟨unmoved, -, atRest⟩ :=
        takePasses_of_rests distinct (rests_of_takePasses distinct ended) positive 0
      have nothingFired : behind.run.fired = [] := unmoved.fired
      rw [same, nothingFired, List.append_nil]
      exact ⟨unmoved.store.symm, rfl, ended.trans atRest.symm⟩

end Run

namespace Engine

def withBound (engine : Engine) (bound : Nat) (positive : 0 < bound) : Engine :=
  { engine with settings := { engine.settings with maxPasses := bound, positive := positive } }

/-- A run of at most some passes, and another one of at most some more on the facts and attempts
that it left, fire the rules that one run of at most as many passes together fires. They end with the
same facts, and both at their bounds or both at rest. -/
theorem execute_withBound_add (engine : Engine) (identity : String) (store : Store)
    (idle : engine.phase.isRunning = false) {first more : Nat} (positive : 0 < first)
    (positiveMore : 0 < more) :
    ∃ between storeBetween before last storeAfter behind single whole,
      (engine.withBound first positive).execute identity store =
          .ok (between, storeBetween, before) ∧
        (between.withBound more positiveMore).execute identity storeBetween =
          .ok (last, storeAfter, behind) ∧
        (engine.withBound (first + more) (Nat.add_pos_left positive more)).execute identity store =
          .ok (single, storeAfter, whole) ∧
        whole.fired = before.fired ++ behind.fired ∧
        behind.boundReached = whole.boundReached := by
  let beforeEngine := engine.withBound first positive
  let behindEngine := (beforeEngine.ranOn identity store).withBound more positiveMore
  have sameHistory : behindEngine.historyOf identity =
      (beforeEngine.runOn identity store).run.history := historyOf_ranOn
  have runBehind : behindEngine.runOn identity (beforeEngine.runOn identity store).run.store =
      Run.takePasses engine.settings.refraction engine.base.bySalience more 0
        (Run.start (beforeEngine.runOn identity store).run.store
          (beforeEngine.runOn identity store).run.history) := by
    rw [runOn, sameHistory]
    rfl
  obtain ⟨sameStore, allFired, sameEnd⟩ :=
    Run.takePasses_then_takePasses engine.settings.refraction engine.base.nodup_bySalience store
      (engine.historyOf identity) first positiveMore
  refine ⟨_, _, _, _, _, _, _, _, execute_of_idle idle, execute_of_idle rfl,
    execute_eq_ok_iff.2 ⟨idle, rfl, ?_, rfl⟩, ?_, ?_⟩
  · show _ = (behindEngine.runOn identity _).run.store
    rw [runBehind]
    exact sameStore
  · show _ = _ ++ (behindEngine.runOn identity _).run.fired
    rw [runBehind]
    exact allFired
  · show (behindEngine.runOn identity _).boundReached = _
    rw [runBehind]
    exact sameEnd.symm

/-- An engine whose only rule changes a truth value each time. -/
private def toggling : Engine :=
  { new .standard with
    base := ⟨.reject,
      [.undescribed "Toggle" 0 (.binary .equal (.fact "flag") (.fact "flag"))
        [.assign (.fact "flag") (.unary .not (.fact "flag"))]],
      by simp [ruleNames]⟩ }

private def raised : Store :=
  (∅ : Store).set "flag" (.bool true)

theorem execute_withBound_add_toggling :
    ∃ between storeBetween before last storeAfter behind single whole,
      (toggling.withBound 2 (by decide)).execute "facts" raised =
          .ok (between, storeBetween, before) ∧
        (between.withBound 3 (by decide)).execute "facts" storeBetween =
          .ok (last, storeAfter, behind) ∧
        (toggling.withBound 5 (by decide)).execute "facts" raised =
          .ok (single, storeAfter, whole) ∧
        whole.fired = before.fired ++ behind.fired ∧
        behind.boundReached = whole.boundReached ∧ before.boundReached = true := by
  have cutOff : ((toggling.withBound 2 (by decide)).runOn "facts" raised).boundReached = true := by
    decide +kernel
  obtain ⟨_, _, _, _, _, _, _, _, ran, ranBehind, ranWhole, allFired, sameEnd⟩ :=
    execute_withBound_add toggling "facts" raised rfl (by decide : 0 < 2) (by decide : 0 < 3)
  obtain ⟨_, _, _, rfl⟩ := execute_eq_ok_iff.1 ran
  exact ⟨_, _, _, _, _, _, _, _, ran, ranBehind, ranWhole, allFired, sameEnd, cutOff⟩

end Engine

end Rulebook
