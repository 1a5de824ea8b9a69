import Rulebook.Proofs.Engine.Effect
import Rulebook.Proofs.Engine.InStep
import Rulebook.Proofs.Engine.Order

/-!
# What a run depends on

What a run depends on. Facts that no rule mentions, in its condition or in an action, are neither
read nor written: two stores that agree on all others are run alike, whatever else they hold.
-/

namespace Rulebook

namespace Run

variable {refraction : Bool} {pass : Nat} {rule : Rule} {rules : List Rule} {names : List String}
  {run other last : Run} {turns : List Turn}

/-! ## Runs that are the same but for some facts -/

/-- Runs that differ only in facts outside of some names. -/
structure SameOn (names : List String) (run other : Run) : Prop where
  store : Store.AgreeOn names run.store other.store
  history : ∀ name, run.history.get? name = other.history.get? name
  fired : run.fired = other.fired
  failures : run.failures = other.failures
  modified : run.modified = other.modified

theorem SameOn.takeTurn (same : SameOn names run other) (refraction : Bool) (pass : Nat)
    (among : ∀ name ∈ rule.mentioned, name ∈ names) :
    InStep (SameOn names) (takeTurn refraction pass rule run)
      (takeTurn refraction pass rule other) := by
  have like := effect_congr refraction (run.history.get? rule.name) same.store among
  rw [takeTurn_eq, takeTurn_eq, ← same.history rule.name]
  refine ⟨⟨like.store, fun name => ?_, ?_, ?_, ?_⟩, like.changed_eq⟩
  · exact record_get?_congr rule like.recorded (same.history name)
  · simp only [Effect.addTo, like.fired_eq, same.fired]
  · simp only [Effect.addTo, like.failures_eq, same.failures]
  · simp only [Effect.addTo, like.written, same.modified]

theorem SameOn.takePass (same : SameOn names run other) (refraction : Bool) (pass : Nat)
    (among : ∀ rule ∈ rules, ∀ name ∈ rule.mentioned, name ∈ names) :
    InStep (SameOn names) (takePass refraction pass rules run)
      (takePass refraction pass rules other) := by
  apply inStep_takePass _ same
  intro rule member reached otherReached sameHere
  exact sameHere.takeTurn refraction pass (among rule member)

theorem SameOn.takePasses (same : SameOn names run other) (refraction : Bool)
    (among : ∀ rule ∈ rules, ∀ name ∈ rule.mentioned, name ∈ names) (allowed made : Nat) :
    SameOn names (takePasses refraction rules allowed made run).run
        (takePasses refraction rules allowed made other).run ∧
      (takePasses refraction rules allowed made run).passes =
        (takePasses refraction rules allowed made other).passes ∧
      (takePasses refraction rules allowed made run).boundReached =
        (takePasses refraction rules allowed made other).boundReached := by
  have inStep (step : Nat) (reached otherReached : Run)
      (sameHere : SameOn names reached otherReached) :
      InStep (SameOn names) (Run.takePass refraction (made + step) rules reached)
        (Run.takePass refraction (made + step) rules otherReached) :=
    sameHere.takePass refraction (made + step) among
  obtain ⟨sameLast, samePasses, sameEnd⟩ := takePasses_inStep allowed inStep same
  exact ⟨sameLast, Nat.add_right_cancel samePasses, sameEnd⟩

/-- Turns change no facts but those that some rule assigns. -/
theorem Turns.store_of_not_mem {name : String} (taken : Turns refraction rules run turns last)
    (notAssigned : ∀ rule ∈ rules, name ∉ rule.assigned) :
    last.store.get? name = run.store.get? name := by
  have same := taken.invariant (p := fun reached => reached.store.get? name = run.store.get? name)
    rfl fun pass rule member reached sameHere =>
      (takeTurn_store_of_not_mem (notAssigned rule member)).trans sameHere
  exact same.1

end Run

namespace Engine

/-- The facts that the rules of an engine mention. -/
def mentioned (engine : Engine) : List String :=
  engine.base.rules.flatMap Rule.mentioned

theorem mem_mentioned_of_mem_bySalience {engine : Engine} {rule : Rule}
    (member : rule ∈ engine.base.bySalience) :
    ∀ name ∈ rule.mentioned, name ∈ engine.mentioned := by
  intro name isMentioned
  have registered : rule ∈ engine.base.rules := engine.base.perm_bySalience.mem_iff.1 member
  exact List.mem_flatMap.2 ⟨rule, registered, isMentioned⟩

/-- An execution leaves the facts alone that no rule mentions. -/
theorem runOn_store_of_not_mem (engine : Engine) (identity : String) (store : Store)
    {name : String} (notMentioned : name ∉ engine.mentioned) :
    (engine.runOn identity store).run.store.get? name = store.get? name := by
  apply (engine.turns_runOn identity store).store_of_not_mem
  intro rule member assigned
  have isMentioned : name ∈ rule.mentioned := Rule.mem_mentioned_of_mem_assigned assigned
  exact notMentioned (mem_mentioned_of_mem_bySalience member name isMentioned)

/-- A run depends on no facts but those that the rules mention. On stores that agree on these, with
the same attempts, engines of the same rules report the same, and lead to stores that agree on them
again; so the next runs are alike as well. All other facts stay as they are in each store. -/
theorem execute_of_agreeOn (engine other : Engine) (identity otherIdentity : String)
    (store otherStore : Store) (idle : engine.phase.isRunning = false)
    (idleOther : other.phase.isRunning = false)
    (sameBound : engine.settings.maxPasses = other.settings.maxPasses)
    (sameRefraction : engine.settings.refraction = other.settings.refraction)
    (sameRules : engine.base.rules = other.base.rules)
    (sameHistory : ∀ name, (engine.historyOf identity).get? name =
      (other.historyOf otherIdentity).get? name)
    (agree : Store.AgreeOn engine.mentioned store otherStore) :
    ∃ after storeAfter otherAfter otherStoreAfter report,
      engine.execute identity store = .ok (after, storeAfter, report) ∧
        other.execute otherIdentity otherStore = .ok (otherAfter, otherStoreAfter, report) ∧
        Store.AgreeOn engine.mentioned storeAfter otherStoreAfter ∧
        (∀ name, name ∉ engine.mentioned → storeAfter.get? name = store.get? name) ∧
        (∀ name, name ∉ engine.mentioned → otherStoreAfter.get? name = otherStore.get? name) ∧
        ∀ name, (after.historyOf identity).get? name =
          (otherAfter.historyOf otherIdentity).get? name := by
  have sameOrder : other.base.bySalience = engine.base.bySalience := by
    rw [RuleBase.bySalience_eq, RuleBase.bySalience_eq, sameRules]
  have sameMentioned : other.mentioned = engine.mentioned := by
    rw [mentioned, mentioned, sameRules]
  have otherRun : other.runOn otherIdentity otherStore =
      Run.takePasses engine.settings.refraction engine.base.bySalience engine.settings.maxPasses 0
        (Run.start otherStore (other.historyOf otherIdentity)) := by
    rw [runOn, sameBound, sameRefraction, sameOrder]
  have same : Run.SameOn engine.mentioned (Run.start store (engine.historyOf identity))
      (Run.start otherStore (other.historyOf otherIdentity)) :=
    ⟨agree, sameHistory, rfl, rfl, rfl⟩
  obtain ⟨sameLast, samePasses, sameEnd⟩ := same.takePasses engine.settings.refraction
    (fun _ => mem_mentioned_of_mem_bySalience) engine.settings.maxPasses 0
  rw [← otherRun] at sameLast samePasses sameEnd
  have sameReport : Report.ofFinished (other.runOn otherIdentity otherStore) =
      Report.ofFinished (engine.runOn identity store) := by
    rw [Report.ofFinished, Report.ofFinished, ← sameLast.fired, ← sameLast.failures,
      ← sameLast.modified, ← samePasses, ← sameEnd]
    rfl
  refine ⟨_, _, _, _, _, execute_of_idle idle,
    execute_eq_ok_iff.2 ⟨idleOther, rfl, rfl, sameReport⟩, sameLast.store,
    fun name notMentioned => ?_, fun name notMentioned => ?_, fun name => ?_⟩
  · exact runOn_store_of_not_mem engine identity store notMentioned
  · rw [← sameMentioned] at notMentioned
    exact runOn_store_of_not_mem other otherIdentity otherStore notMentioned
  · rw [historyOf_ranOn, historyOf_ranOn]
    exact sameLast.history name

/-- A rule that marks the element at an index, where it is null. -/
private def marking : Engine :=
  { new .standard with
    base := ⟨.reject,
      [.undescribed "Mark" 0 (.binary .equal (.element (.fact "list") (.fact "index")) .null)
        [.assign (.element (.fact "list") (.fact "index")) (.bool true)]],
      by decide⟩ }

private def unmarked : Store :=
  ((∅ : Store).set "list" (.array [.null])).set "index" (.number 0)

/-- A store with the same facts in another order, and one that the rule does not mention. -/
private def unmarkedBesides : Store :=
  (((∅ : Store).set "index" (.number 0)).set "note" .null).set "list" (.array [.null])

theorem agreeOn_marking : Store.AgreeOn marking.mentioned unmarked unmarkedBesides := by
  have mentioned : marking.mentioned = ["list", "index", "list", "index"] := by decide +kernel
  intro name member
  rw [mentioned] at member
  simp only [List.mem_cons, List.not_mem_nil, or_false] at member
  rcases member with rfl | rfl | rfl | rfl <;> rfl

theorem execute_of_agreeOn_marking :
    Store.AgreeOn marking.mentioned unmarked unmarkedBesides ∧
      ∃ after storeAfter otherAfter otherStoreAfter report,
        marking.execute "facts" unmarked = .ok (after, storeAfter, report) ∧
          marking.execute "others" unmarkedBesides = .ok (otherAfter, otherStoreAfter, report) ∧
          report.fired = ["Mark"] ∧
          storeAfter.get? "list" = otherStoreAfter.get? "list" ∧
          storeAfter.get? "note" = none ∧ otherStoreAfter.get? "note" = some .null := by
  have notMentioned : "note" ∉ marking.mentioned := by decide +kernel
  have mentioned : "list" ∈ marking.mentioned := by decide +kernel
  obtain ⟨after, storeAfter, otherAfter, otherStoreAfter, report, executed, executedOther,
    agreeAfter, kept, keptOther, _⟩ :=
    execute_of_agreeOn marking marking "facts" "others" unmarked unmarkedBesides rfl rfl rfl rfl rfl
      (fun _ => rfl) agreeOn_marking
  have fired : report.fired = ["Mark"] := by
    rw [← (execute_eq_ok_iff.1 executed).2.2.2]
    decide +kernel
  exact ⟨agreeOn_marking, after, storeAfter, otherAfter, otherStoreAfter, report, executed,
    executedOther, fired, agreeAfter "list" mentioned, kept "note" notMentioned,
    keptOther "note" notMentioned⟩

end Engine

end Rulebook
