import Rulebook.Proofs.Engine.Execution

/-!
# Runs that come to rest

Runs that come to rest. A rule rests when its turn changes no fact; it then rests at its next turn
as well, as long as the facts and its own last attempt are the same. A pass that changes nothing
leaves all rules at rest, so that a second run ends with its first pass.
-/

namespace Rulebook

namespace Run

variable {refraction : Bool} {pass : Nat} {rule : Rule} {rules : List Rule} {run : Run}

/-- Whether the turn of a rule leaves the facts as they are: its condition does not hold, it is
passed over, or one of its actions fails before any has written. -/
def Rests (refraction : Bool) (store : Store) (history : History) (rule : Rule) : Prop :=
  ¬ rule.Holds store ∨ Suppressed refraction rule history store ∨
    ((performAll store rule.actions).fault?.isSome = true ∧
      (performAll store rule.actions).written = [])

theorem suppressed_congr {history other : History} {store : Store}
    (same : history.get? rule.name = other.get? rule.name) :
    Suppressed refraction rule history store ↔ Suppressed refraction rule other store := by
  simp only [Suppressed, isSuppressed, same]

theorem Rests.congr {store : Store} {history other : History}
    (same : history.get? rule.name = other.get? rule.name)
    (rests : Rests refraction store history rule) : Rests refraction store other rule := by
  rcases rests with notHolding | suppressed | failing
  · exact .inl notHolding
  · exact .inr (.inl ((suppressed_congr same).1 suppressed))
  · exact .inr (.inr failing)

/-! ## Turns of resting rules -/

/-- What a run has not changed: the facts, the rules that fired, and the facts that were written. -/
structure Unmoved (run after : Run) : Prop where
  store : after.store = run.store
  fired : after.fired = run.fired
  modified : after.modified = run.modified

theorem Unmoved.refl (run : Run) : Unmoved run run :=
  ⟨rfl, rfl, rfl⟩

theorem Unmoved.trans {first second third : Run} (before : Unmoved first second)
    (behind : Unmoved second third) : Unmoved first third :=
  ⟨behind.store.trans before.store, behind.fired.trans before.fired,
    behind.modified.trans before.modified⟩

theorem takeTurn_history_of_ne {name : String} (different : name ≠ rule.name) :
    (takeTurn refraction pass rule run).1.history.get? name = run.history.get? name := by
  have possible := takeTurn_cases refraction pass rule run
  generalize takeTurn refraction pass rule run = result at *
  cases possible with
  | attempted holds notSuppressed =>
      rw [attempt_history, recordAttempt]
      cases refraction with
      | true => exact Table.get?_set_of_ne run.history _ different
      | false => rfl
  | _ => rfl

/-- A turn changes nothing exactly when the rule rests. -/
theorem takeTurn_unchanged_iff :
    (takeTurn refraction pass rule run).2 = false ↔
      Rests refraction run.store run.history rule := by
  have possible := takeTurn_cases refraction pass rule run
  generalize takeTurn refraction pass rule run = result at *
  cases possible with
  | conditionFailed fault failed =>
      refine iff_of_true rfl (.inl ?_)
      rw [Rule.Holds, failed]
      exact fun holds => by cases holds
  | notHolding notHolding => exact iff_of_true rfl (.inl notHolding)
  | suppressed holds suppressed => exact iff_of_true rfl (.inr (.inl suppressed))
  | attempted holds notSuppressed =>
      rw [attempt_changed, Bool.or_eq_false_iff, Bool.not_eq_false', List.isEmpty_iff,
        Option.isNone_eq_false_iff]
      constructor
      · exact fun failing => .inr (.inr failing)
      · rintro (notHolding | suppressed | failing)
        · exact absurd holds notHolding
        · exact absurd suppressed notSuppressed
        · exact failing

/-- A turn that does not count as a change moves nothing. -/
theorem unmoved_of_unchanged (unchanged : (takeTurn refraction pass rule run).2 = false) :
    Unmoved run (takeTurn refraction pass rule run).1 := by
  have possible := takeTurn_cases refraction pass rule run
  generalize takeTurn refraction pass rule run = result at *
  cases possible with
  | conditionFailed fault failed => exact ⟨rfl, rfl, rfl⟩
  | notHolding notHolding => exact Unmoved.refl run
  | suppressed holds suppressed => exact Unmoved.refl run
  | attempted holds notSuppressed =>
      rw [attempt_changed, Bool.or_eq_false_iff, Bool.not_eq_false', List.isEmpty_iff] at unchanged
      obtain ⟨failed, noWrite⟩ := unchanged
      refine ⟨?_, ?_, ?_⟩
      · rw [attempt_store]
        exact performAll_store_of_written_eq_nil noWrite
      · rw [attempt_fired, failed]
        rfl
      · rw [attempt_modified, noWrite]
        rfl

/-- A rule that rests at its turn rests at the next one. -/
theorem rests_after_turn (unchanged : (takeTurn refraction pass rule run).2 = false) :
    Rests refraction (takeTurn refraction pass rule run).1.store
      (takeTurn refraction pass rule run).1.history rule := by
  have rests := takeTurn_unchanged_iff.1 unchanged
  rw [(unmoved_of_unchanged unchanged).store]
  rcases rests with notHolding | suppressed | failing
  · exact .inl notHolding
  · by_cases holds : rule.Holds run.store
    · rw [takeTurn_of_suppressed holds suppressed]
      exact .inr (.inl suppressed)
    · exact .inl holds
  · exact .inr (.inr failing)

/-! ## Passes of resting rules -/

private theorem takePass_history_of_not_mem {name : String} (absent : name ∉ ruleNames rules) :
    (takePass refraction pass rules run).1.history.get? name = run.history.get? name := by
  induction rules generalizing run with
  | nil => rfl
  | cons first rules inductionHypothesis =>
      obtain ⟨different, absentLater⟩ := not_or.1 (mt List.mem_cons.2 absent)
      rw [takePass_cons]
      exact (inductionHypothesis absentLater).trans (takeTurn_history_of_ne different)

/-- A pass that changes nothing leaves the facts as they are, and all rules at rest. -/
theorem rests_of_takePass_unchanged (distinct : (ruleNames rules).Nodup)
    (unchanged : (takePass refraction pass rules run).2 = false) :
    Unmoved run (takePass refraction pass rules run).1 ∧
      ∀ rule ∈ rules, Rests refraction (takePass refraction pass rules run).1.store
        (takePass refraction pass rules run).1.history rule := by
  induction rules generalizing run with
  | nil => exact ⟨Unmoved.refl run, by simp⟩
  | cons first rules inductionHypothesis =>
      obtain ⟨absent, distinctLater⟩ := List.nodup_cons.1 distinct
      rw [takePass_cons, Bool.or_eq_false_iff] at unchanged
      obtain ⟨unchangedTurn, unchangedLater⟩ := unchanged
      obtain ⟨unmovedLater, restLater⟩ := inductionHypothesis distinctLater unchangedLater
      rw [takePass_cons]
      refine ⟨(unmoved_of_unchanged unchangedTurn).trans unmovedLater, ?_⟩
      intro rule member
      rcases List.mem_cons.1 member with rfl | later
      · rw [unmovedLater.store]
        exact (rests_after_turn unchangedTurn).congr (takePass_history_of_not_mem absent).symm
      · exact restLater rule later

/-- A pass in which all rules rest changes nothing. -/
theorem takePass_of_rests (distinct : (ruleNames rules).Nodup)
    (rest : ∀ rule ∈ rules, Rests refraction run.store run.history rule) :
    (takePass refraction pass rules run).2 = false := by
  induction rules generalizing run with
  | nil => rfl
  | cons first rules inductionHypothesis =>
      obtain ⟨absent, distinctLater⟩ := List.nodup_cons.1 distinct
      have unchanged : (takeTurn refraction pass first run).2 = false :=
        takeTurn_unchanged_iff.2 (rest first List.mem_cons_self)
      rw [takePass_cons, Bool.or_eq_false_iff]
      refine ⟨unchanged, inductionHypothesis distinctLater ?_⟩
      intro rule member
      have different : rule.name ≠ first.name := by
        intro same
        exact absent (same ▸ List.mem_map_of_mem member)
      rw [(unmoved_of_unchanged unchanged).store]
      exact (rest rule (List.mem_cons_of_mem first member)).congr
        (takeTurn_history_of_ne different).symm

/-! ## Runs -/

/-- A run that ends before its bound leaves all rules at rest. -/
theorem rests_of_takePasses (distinct : (ruleNames rules).Nodup) {allowed made : Nat}
    (atRest : (takePasses refraction rules allowed made run).boundReached = false) :
    ∀ rule ∈ rules,
      Rests refraction (takePasses refraction rules allowed made run).run.store
        (takePasses refraction rules allowed made run).run.history rule := by
  induction allowed generalizing made run with
  | zero => cases atRest
  | succ allowed inductionHypothesis =>
      cases changed : (takePass refraction (made + 1) rules run).2 with
      | true =>
          rw [takePasses_of_changed changed] at atRest ⊢
          exact inductionHypothesis atRest
      | false =>
          rw [takePasses_of_unchanged changed]
          exact (rests_of_takePass_unchanged distinct changed).2

/-- Where all rules rest, one pass is made and nothing changes. -/
theorem takePasses_of_rests (distinct : (ruleNames rules).Nodup) {store : Store}
    {history : History} (rest : ∀ rule ∈ rules, Rests refraction store history rule)
    {allowed : Nat} (positive : 0 < allowed) (made : Nat) :
    Unmoved (start store history)
        (takePasses refraction rules allowed made (start store history)).run ∧
      (takePasses refraction rules allowed made (start store history)).passes = made + 1 ∧
      (takePasses refraction rules allowed made (start store history)).boundReached = false := by
  obtain ⟨others, rfl⟩ := Nat.exists_eq_add_of_lt positive
  have unchanged : (takePass refraction (made + 1) rules (start store history)).2 = false :=
    takePass_of_rests distinct rest
  rw [takePasses_of_unchanged unchanged]
  exact ⟨(rests_of_takePass_unchanged distinct unchanged).1, rfl, rfl⟩

end Run

namespace Engine

variable {engine after : Engine} {identity : String} {store storeAfter : Store} {report : Report}

/-- Where a run came to rest, a run that follows on the same facts ends with its first pass; in it
no rule fires and no fact is written. -/
theorem execute_idempotent
    (executed : engine.execute identity store = .ok (after, storeAfter, report))
    (atRest : report.boundReached = false) :
    ∃ last lastReport,
      after.execute identity storeAfter = .ok (last, storeAfter, lastReport) ∧
        lastReport.fired = [] ∧ lastReport.modified = [] ∧ lastReport.passes = 1 ∧
        lastReport.boundReached = false := by
  obtain ⟨_, rfl, rfl, rfl⟩ := execute_eq_ok_iff.1 executed
  have distinct := engine.base.nodup_bySalience
  have rest : ∀ rule ∈ engine.base.bySalience,
      Run.Rests engine.settings.refraction (engine.runOn identity store).run.store
        (engine.runOn identity store).run.history rule :=
    Run.rests_of_takePasses distinct atRest
  obtain ⟨unmoved, passes, bound⟩ :=
    Run.takePasses_of_rests distinct rest engine.settings.positive 0
  rw [← runOn_ranOn] at unmoved passes bound
  exact ⟨_, _, execute_eq_ok_iff.2 ⟨rfl, rfl, unmoved.store, rfl⟩, unmoved.fired,
    unmoved.modified, passes, bound⟩

/-- An engine with one rule, which holds of a fact that is not a number and fails at its only
action. -/
private def withUnequal : Engine :=
  { new .standard with
    base := ⟨.reject,
      [.undescribed "unequal" 0 (.binary .notEqual (.fact "x") (.fact "x")) [.fact "y"]],
      by simp [ruleNames]⟩ }

def notANumber : Store :=
  (∅ : Store).set "x" (.number (Float.ofBits 0x7FF8000000000000))

theorem execute_idempotent_withUnequal :
    withUnequal.phase.isRunning = false ∧
      (Report.ofFinished (withUnequal.runOn "facts" notANumber)).boundReached = false ∧
      ∃ last lastReport,
        (withUnequal.ranOn "facts" notANumber).execute "facts"
            (withUnequal.runOn "facts" notANumber).run.store =
          .ok (last, (withUnequal.runOn "facts" notANumber).run.store, lastReport) ∧
        lastReport.fired = [] ∧ lastReport.modified = [] ∧ lastReport.passes = 1 ∧
        lastReport.boundReached = false := by
  have atRest :
      (Report.ofFinished (withUnequal.runOn "facts" notANumber)).boundReached = false := by
    decide +kernel
  exact ⟨rfl, atRest, execute_idempotent (execute_of_idle rfl) atRest⟩

end Engine

end Rulebook
