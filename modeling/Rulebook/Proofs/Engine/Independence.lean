import Rulebook.Proofs.Engine.Acyclic
import Rulebook.Proofs.Engine.InStep
import Rulebook.Proofs.Engine.Order
import Rulebook.Proofs.Engine.PassReport
import Rulebook.Proofs.Engine.Rest

/-!
# Independent rules

Rules that do not interfere. Where neither of two rules assigns a fact that the other mentions,
their turns may be swapped: the facts and the attempts afterwards are the same, and so is what is
reported, up to its order. If this holds of all rules of one salience, nothing else depends on the
order in which rules were added.
-/

namespace Rulebook

/-- Whether neither of two rules assigns a fact that the other mentions. -/
def Rule.Independent (rule other : Rule) : Prop :=
  (∀ name ∈ rule.assigned, name ∉ other.mentioned) ∧
    ∀ name ∈ other.assigned, name ∉ rule.mentioned

instance (rule other : Rule) : Decidable (rule.Independent other) :=
  inferInstanceAs (Decidable (_ ∧ _))

theorem Rule.Independent.symm {rule other : Rule} (independent : rule.Independent other) :
    other.Independent rule :=
  ⟨independent.2, independent.1⟩

/-- Whether two passes have the same firings and the same failures, in some order. -/
structure PassReport.Same (report other : PassReport) : Prop where
  fired : report.fired.Perm other.fired
  failures : report.failures.Perm other.failures

namespace Run

variable {refraction : Bool} {pass : Nat} {rule another : Rule} {rules others : List Rule}
  {run other : Run}

/-! ## Similar runs -/

/-- Runs with the same facts and attempts that report the same, in some order. -/
structure Similar (run other : Run) : Prop where
  store : ∀ name, run.store.get? name = other.store.get? name
  history : ∀ name, run.history.get? name = other.history.get? name
  fired : run.fired.Perm other.fired
  failures : run.failures.Perm other.failures
  modified : ∀ name, name ∈ run.modified ↔ name ∈ other.modified

theorem Similar.refl (run : Run) : Similar run run :=
  ⟨fun _ => rfl, fun _ => rfl, .refl _, .refl _, fun _ => Iff.rfl⟩

theorem Similar.trans {first second third : Run} (similar : Similar first second)
    (similarToo : Similar second third) : Similar first third :=
  ⟨fun name => (similar.store name).trans (similarToo.store name),
    fun name => (similar.history name).trans (similarToo.history name),
    similar.fired.trans similarToo.fired, similar.failures.trans similarToo.failures,
    fun name => (similar.modified name).trans (similarToo.modified name)⟩

theorem Similar.takeTurn (similar : Similar run other) (refraction : Bool) (pass : Nat)
    (rule : Rule) :
    InStep Similar (takeTurn refraction pass rule run) (takeTurn refraction pass rule other) := by
  have agree : Store.AgreeOn rule.mentioned run.store other.store :=
    fun name _ => similar.store name
  have like := effect_congr refraction (run.history.get? rule.name) agree fun _ => id
  rw [takeTurn_eq, takeTurn_eq, ← similar.history rule.name]
  refine ⟨⟨?_, fun name => ?_, ?_, ?_, fun name => ?_⟩, like.changed_eq⟩
  · exact effect_store_congr refraction _ similar.store
  · exact record_get?_congr rule like.recorded (similar.history name)
  · simp only [Effect.addTo, like.fired_eq]
    exact similar.fired.append_right _
  · simp only [Effect.addTo, like.failures_eq]
    exact similar.failures.append_right _
  · simp only [Effect.addTo, mem_foldl_noteWrite, like.written, similar.modified]

theorem Similar.takePass (similar : Similar run other) (refraction : Bool) (pass : Nat)
    (rules : List Rule) :
    InStep Similar (takePass refraction pass rules run) (takePass refraction pass rules other) :=
  inStep_takePass (fun rule _ _ _ similar => similar.takeTurn refraction pass rule) similar

/-! ## Turns that are swapped -/

/-- The turn of a rule that does not interfere has the same effect before and after that of
another. -/
theorem effect_after_turn (refraction : Bool) (pass : Nat) (run : Run)
    (notAssigned : ∀ name ∈ rule.assigned, name ∉ another.mentioned)
    (different : rule.name ≠ another.name) :
    Effect.LikeOn another.mentioned
      (effect refraction another (takeTurn refraction pass rule run).1.store
        ((takeTurn refraction pass rule run).1.history.get? another.name))
      (effect refraction another run.store (run.history.get? another.name)) := by
  rw [takeTurn_history_of_ne different.symm]
  refine effect_congr refraction _ (fun name mentioned => ?_) fun _ => id
  rw [takeTurn_eq]
  exact effect_store_of_not_mem refraction _ fun assigned => notAssigned name assigned mentioned

/-- A turn of an independent rule before a turn changes nothing in what that turn writes. -/
theorem takeTurn_store_after_turn {name : String} (independent : rule.Independent another)
    (different : rule.name ≠ another.name) (assigned : name ∈ another.assigned) :
    (takeTurn refraction pass another (takeTurn refraction pass rule run).1).1.store.get? name =
      (takeTurn refraction pass another run).1.store.get? name := by
  rw [takeTurn_eq refraction pass another, takeTurn_eq refraction pass another]
  exact (effect_after_turn refraction pass run independent.1 different).store name
    (Rule.mem_mentioned_of_mem_assigned assigned)

private theorem takeTurn_store_comm (independent : rule.Independent another)
    (different : rule.name ≠ another.name) (name : String) :
    (takeTurn refraction pass another (takeTurn refraction pass rule run).1).1.store.get? name =
      (takeTurn refraction pass rule
        (takeTurn refraction pass another run).1).1.store.get? name := by
  by_cases assigned : name ∈ another.assigned
  · have notAssigned : name ∉ rule.assigned := fun assignedFirst =>
      independent.1 name assignedFirst (Rule.mem_mentioned_of_mem_assigned assigned)
    rw [takeTurn_store_after_turn independent different assigned,
      takeTurn_store_of_not_mem notAssigned]
  · rw [takeTurn_store_of_not_mem assigned]
    by_cases assignedFirst : name ∈ rule.assigned
    · exact (takeTurn_store_after_turn independent.symm different.symm assignedFirst).symm
    · rw [takeTurn_store_of_not_mem assignedFirst, takeTurn_store_of_not_mem assignedFirst,
        takeTurn_store_of_not_mem assigned]

/-- Behind the turn of a rule that does not interfere, a turn adds what it adds on its own. -/
theorem takeTurn_after_turn (refraction : Bool) (pass : Nat) (run : Run)
    (independent : rule.Independent another) (different : rule.name ≠ another.name) :
    let first := effect refraction rule run.store (run.history.get? rule.name)
    let second := effect refraction another run.store (run.history.get? another.name)
    let result := takeTurn refraction pass another (takeTurn refraction pass rule run).1
    result.1.history = second.record another (first.record rule run.history) ∧
      result.1.fired = run.fired ++ (first.fired rule ++ second.fired another) ∧
      result.1.failures =
        run.failures ++ (first.failures pass rule ++ second.failures pass another) ∧
      result.1.modified =
        second.written.foldl noteWrite (first.written.foldl noteWrite run.modified) ∧
      result.2 = second.changed := by
  intro first second result
  have like := effect_after_turn refraction pass run independent.1 different
  have afterFirst :
      takeTurn refraction pass rule run = (first.addTo pass rule run, first.changed) :=
    takeTurn_eq refraction pass rule run
  have isResult : result = _ :=
    takeTurn_eq refraction pass another (takeTurn refraction pass rule run).1
  rw [isResult, like.changed_eq]
  simp only [Effect.addTo, like.record_eq, like.fired_eq, like.failures_eq, like.written]
  rw [afterFirst]
  exact ⟨rfl, List.append_assoc _ _ _, List.append_assoc _ _ _, rfl, rfl⟩

private theorem record_comm (first second : Effect) (history : History)
    (different : rule.name ≠ another.name) (name : String) :
    (second.record another (first.record rule history)).get? name =
      (first.record rule (second.record another history)).get? name := by
  by_cases same : name = rule.name
  · subst same
    rw [record_get?_of_ne _ _ different, record_get?_self, record_get?_self,
      record_get?_of_ne _ _ different]
  · by_cases sameToo : name = another.name
    · subst sameToo
      rw [record_get?_self, record_get?_of_ne _ _ same, record_get?_of_ne _ _ same,
        record_get?_self]
    · rw [record_get?_of_ne _ _ sameToo, record_get?_of_ne _ _ same, record_get?_of_ne _ _ same,
        record_get?_of_ne _ _ sameToo]

/-- The turns of two rules that do not interfere may be swapped. -/
theorem takeTurn_comm (refraction : Bool) (pass : Nat) (run : Run)
    (independent : rule.Independent another) (different : rule.name ≠ another.name) :
    Similar (takeTurn refraction pass another (takeTurn refraction pass rule run).1).1
        (takeTurn refraction pass rule (takeTurn refraction pass another run).1).1 ∧
      ((takeTurn refraction pass rule run).2 ||
          (takeTurn refraction pass another (takeTurn refraction pass rule run).1).2) =
        ((takeTurn refraction pass another run).2 ||
          (takeTurn refraction pass rule (takeTurn refraction pass another run).1).2) := by
  obtain ⟨history, fired, failures, modified, flag⟩ :=
    takeTurn_after_turn refraction pass run independent different
  obtain ⟨otherHistory, otherFired, otherFailures, otherModified, otherFlag⟩ :=
    takeTurn_after_turn refraction pass run independent.symm different.symm
  refine ⟨⟨takeTurn_store_comm independent different, fun name => ?_, ?_, ?_, fun name => ?_⟩, ?_⟩
  · rw [history, otherHistory]
    exact record_comm _ _ run.history different name
  · rw [fired, otherFired]
    exact List.perm_append_comm.append_left run.fired
  · rw [failures, otherFailures]
    exact List.perm_append_comm.append_left run.failures
  · rw [modified, otherModified]
    simp only [mem_foldl_noteWrite]
    exact or_right_comm
  · rw [flag, otherFlag, takeTurn_eq refraction pass rule run,
      takeTurn_eq refraction pass another run]
    exact Bool.or_comm _ _

/-! ## Passes and runs -/

/-- Whether two rules of different names do not interfere. -/
def MaySwap (rule another : Rule) : Prop :=
  rule.Independent another ∧ rule.name ≠ another.name

/-- Passes in orders that differ by swaps of independent rules end alike. -/
theorem takePass_of_swaps (refraction : Bool) (pass : Nat) (run : Run)
    (swaps : Swaps MaySwap rules others) :
    InStep Similar (takePass refraction pass rules run) (takePass refraction pass others run) := by
  induction swaps generalizing run with
  | refl rules => exact ⟨Similar.refl _, rfl⟩
  | trans _ _ firstHypothesis secondHypothesis =>
      obtain ⟨similar, sameFlag⟩ := firstHypothesis run
      obtain ⟨similarToo, sameFlagToo⟩ := secondHypothesis run
      exact ⟨similar.trans similarToo, sameFlag.trans sameFlagToo⟩
  | cons rule _ inductionHypothesis =>
      exact inStep_cons ⟨Similar.refl _, rfl⟩
        (inductionHypothesis (takeTurn refraction pass rule run).1)
  | swap rule another rules maySwap =>
      obtain ⟨similar, sameFlag⟩ := takeTurn_comm refraction pass run maySwap.1 maySwap.2
      obtain ⟨similarLast, sameFlagLater⟩ := similar.takePass refraction pass rules
      simp only [takePass_cons]
      refine ⟨similarLast, ?_⟩
      rw [← Bool.or_assoc, ← Bool.or_assoc, sameFlag, sameFlagLater]

theorem Similar.takePass_of_swaps (similar : Similar run other) (refraction : Bool) (pass : Nat)
    (swaps : Swaps MaySwap rules others) :
    InStep Similar (Run.takePass refraction pass rules run)
      (Run.takePass refraction pass others other) := by
  obtain ⟨similarSwapped, sameFlagSwapped⟩ := Run.takePass_of_swaps refraction pass run swaps
  obtain ⟨similarOther, sameFlagOther⟩ := similar.takePass refraction pass others
  exact ⟨similarSwapped.trans similarOther, sameFlagSwapped.trans sameFlagOther⟩

theorem perm_of_append_perm {α : Type} {before otherBefore new otherNew : List α}
    (permBefore : before.Perm otherBefore)
    (perm : (before ++ new).Perm (otherBefore ++ otherNew)) : new.Perm otherNew := by
  have permSame : (otherBefore ++ new).Perm (otherBefore ++ otherNew) :=
    (permBefore.symm.append_right new).trans perm
  exact (List.perm_append_left_iff otherBefore).1 permSame

theorem Similar.reportBetween {after otherAfter : Run} (similar : Similar run other)
    (similarAfter : Similar after otherAfter) (grows : Grows run after)
    (growsToo : Grows other otherAfter) :
    PassReport.Same (reportBetween run after) (reportBetween other otherAfter) := by
  refine ⟨perm_of_append_perm similar.fired ?_, perm_of_append_perm similar.failures ?_⟩
  · rw [grows.fired_eq, growsToo.fired_eq]
    exact similarAfter.fired
  · rw [grows.failures_eq, growsToo.failures_eq]
    exact similarAfter.failures

/-- Runs in which the rules take their turns in orders that differ only by swaps have as many passes
and end alike. -/
theorem takePasses_of_swaps (refraction : Bool) (swaps : Swaps MaySwap rules others)
    (allowed made : Nat) (similar : Similar run other) :
    Similar (takePasses refraction rules allowed made run).run
        (takePasses refraction others allowed made other).run ∧
      (takePasses refraction rules allowed made run).passes =
        (takePasses refraction others allowed made other).passes ∧
      (takePasses refraction rules allowed made run).boundReached =
        (takePasses refraction others allowed made other).boundReached := by
  obtain ⟨similarLast, samePasses, sameEnd⟩ := takePasses_inStep allowed
    (fun step _ _ similar => similar.takePass_of_swaps refraction (made + step) swaps) similar
  exact ⟨similarLast, Nat.add_right_cancel samePasses, sameEnd⟩

/-- Each pass of them reports the same, up to the order in the pass. -/
theorem passReports_of_swaps (refraction : Bool) (swaps : Swaps MaySwap rules others)
    (allowed made : Nat) (similar : Similar run other) :
    List.Forall₂ PassReport.Same (passReports refraction rules allowed made run)
      (passReports refraction others allowed made other) := by
  induction allowed generalizing made run other with
  | zero => exact .nil
  | succ allowed inductionHypothesis =>
      obtain ⟨similarAfter, sameFlag⟩ := similar.takePass_of_swaps refraction (made + 1) swaps
      have sameReport := similar.reportBetween similarAfter grows_takePass grows_takePass
      rw [passReports, passReports, ← sameFlag]
      cases (takePass refraction (made + 1) rules run).2 with
      | true => exact .cons sameReport (inductionHypothesis (made + 1) similarAfter)
      | false => exact .cons sameReport .nil

end Run

namespace Engine

/-- Where rules of one salience do not interfere, the order in which rules were added has no
influence on a run from the first attempts: its passes are as many and report the same, up to the
order in each pass, and it leads to the same facts. -/
theorem execute_of_perm (engine other : Engine) (identity : String) (store : Store)
    (idle : engine.phase.isRunning = false) (idleOther : other.phase.isRunning = false)
    (sameBound : engine.settings.maxPasses = other.settings.maxPasses)
    (sameRefraction : engine.settings.refraction = other.settings.refraction)
    (fresh : engine.historyOf identity = ∅) (freshOther : other.historyOf identity = ∅)
    (sameRules : engine.base.rules.Perm other.base.rules)
    (independent : ∀ rule ∈ engine.base.rules, ∀ another ∈ engine.base.rules, rule ≠ another →
      rule.salience = another.salience → rule.Independent another) :
    ∃ after storeAfter report otherAfter otherStoreAfter otherReport,
      engine.execute identity store = .ok (after, storeAfter, report) ∧
        other.execute identity store = .ok (otherAfter, otherStoreAfter, otherReport) ∧
        report.passes = otherReport.passes ∧
        report.boundReached = otherReport.boundReached ∧
        List.Forall₂ PassReport.Same (engine.passReportsOn identity store)
          (other.passReportsOn identity store) ∧
        (∀ name, name ∈ report.modified ↔ name ∈ otherReport.modified) ∧
        ∀ name, storeAfter.get? name = otherStoreAfter.get? name := by
  have swaps : Swaps Run.MaySwap engine.base.bySalience other.base.bySalience := by
    apply RuleBase.swaps_bySalience sameRules
    intro rule member another memberToo different ties
    refine ⟨independent rule member another memberToo different ties, fun sameName => different ?_⟩
    exact List.inj_on_of_nodup_map engine.base.distinct member memberToo sameName
  have similar : Run.Similar (Run.start store (engine.historyOf identity))
      (Run.start store (other.historyOf identity)) := by
    rw [fresh, freshOther]
    exact Run.Similar.refl _
  obtain ⟨similarLast, samePasses, sameEnd⟩ :=
    Run.takePasses_of_swaps engine.settings.refraction swaps engine.settings.maxPasses 0 similar
  have sameReports :=
    Run.passReports_of_swaps engine.settings.refraction swaps engine.settings.maxPasses 0 similar
  have otherRun : other.runOn identity store =
      Run.takePasses engine.settings.refraction other.base.bySalience engine.settings.maxPasses 0
        (Run.start store (other.historyOf identity)) := by
    rw [runOn, sameBound, sameRefraction]
  have otherReports : other.passReportsOn identity store =
      Run.passReports engine.settings.refraction other.base.bySalience engine.settings.maxPasses 0
        (Run.start store (other.historyOf identity)) := by
    rw [passReportsOn, sameBound, sameRefraction]
  refine ⟨_, _, _, _, _, _, execute_of_idle idle, execute_of_idle idleOther, ?_⟩
  rw [otherRun, otherReports]
  exact ⟨samePasses, sameEnd, sameReports, similarLast.modified, similarLast.store⟩

/-- Two rules that take over different facts, in both orders, and a store in which one may fire. -/
private def leftRule : Rule := takingOver "left" "x" "y"

private def rightRule : Rule := takingOver "right" "u" "v"

private def leftFirst : Engine :=
  { new .standard with base := ⟨.reject, [leftRule, rightRule], by decide⟩ }

private def rightFirst : Engine :=
  { new .standard with base := ⟨.reject, [rightRule, leftRule], by decide⟩ }

theorem execute_of_perm_leftFirst :
    leftRule.Independent rightRule ∧
      ∃ after storeAfter report otherAfter otherStoreAfter otherReport,
        leftFirst.execute "facts" handed = .ok (after, storeAfter, report) ∧
          rightFirst.execute "facts" handed = .ok (otherAfter, otherStoreAfter, otherReport) ∧
          report.passes = otherReport.passes ∧
          report.boundReached = otherReport.boundReached ∧
          List.Forall₂ PassReport.Same (leftFirst.passReportsOn "facts" handed)
            (rightFirst.passReportsOn "facts" handed) ∧
          (∀ name, name ∈ report.modified ↔ name ∈ otherReport.modified) ∧
          ∀ name, storeAfter.get? name = otherStoreAfter.get? name := by
  have independent : leftRule.Independent rightRule := by decide +kernel
  have sameRules : leftFirst.base.rules.Perm rightFirst.base.rules := .swap rightRule leftRule []
  refine ⟨independent, execute_of_perm leftFirst rightFirst "facts" handed rfl rfl rfl rfl rfl rfl
    sameRules fun rule member another memberToo different _ => ?_⟩
  simp only [leftFirst, List.mem_cons, List.not_mem_nil, or_false] at member memberToo
  rcases member with rfl | rfl <;> rcases memberToo with rfl | rfl
  · exact absurd rfl different
  · exact independent
  · exact independent.symm
  · exact absurd rfl different

end Engine

end Rulebook
