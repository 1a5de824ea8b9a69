import Rulebook.Proofs.Engine.Execution

/-!
# Forward chaining without refraction

Forward chaining without refraction, as a loop of its own: a flag tells whether another pass is
made, and it is set in a pass when performing the actions of a rule meets a criterion. By the plain
criterion the rule has to fire. The engine also goes on where a rule has written a fact before one
of its actions failed. The two differ only in runs in which that happens.
-/

namespace Rulebook

namespace Chaining

open Run (Performed performAll)

structure State where
  store : Store
  fired : List String

structure Outcome where
  store : Store
  fired : List String
  passes : Nat
  boundReached : Bool

/-- Whether a rule has fired: all its actions succeeded. -/
def hasFired (performed : Performed) : Bool :=
  performed.fault?.isNone

/-- Whether the facts may have changed: the rule has fired, or it has written before it failed. -/
def mayHaveChanged (performed : Performed) : Bool :=
  performed.fault?.isNone || !performed.written.isEmpty

variable (criterion : Performed → Bool)

/-- The turn of a rule: the state afterwards, and whether the flag is set. -/
def turn (rule : Rule) (state : State) : State × Bool :=
  match rule.condition.evalCondition state.store with
  | .ok (some true) =>
    let performed := performAll state.store rule.actions
    (⟨performed.store, if hasFired performed then state.fired ++ [rule.name] else state.fired⟩,
      criterion performed)
  | _ => (state, false)

/-- The turn of a rule in a pass, which sets the flag or leaves it as it is. -/
def turnInPass (before : State × Bool) (rule : Rule) : State × Bool :=
  ((turn criterion rule before.1).1, before.2 || (turn criterion rule before.1).2)

/-- A pass over the rules; the flag is set where the turn of some rule sets it. -/
def pass (rules : List Rule) (state : State) : State × Bool :=
  rules.foldl (turnInPass criterion) (state, false)

/-- Makes passes while the flag is set, as long as some are left. -/
def loop (rules : List Rule) : (left made : Nat) → (flag : Bool) → State → Outcome
  | _, made, false, state => ⟨state.store, state.fired, made, false⟩
  | 0, made, true, state => ⟨state.store, state.fired, made, true⟩
  | left + 1, made, true, state =>
    let (after, flag) := pass criterion rules state
    loop rules left (made + 1) flag after

/-- Chains rules from their first pass, which is always made. -/
def run (rules : List Rule) (bound : Nat) (store : Store) : Outcome :=
  loop criterion rules bound 0 true ⟨store, []⟩

/-! ## Turns, passes and runs of an engine -/

/-- What chaining sees of a run: the facts, and the rules that have fired. -/
def seen (run : Run) : State :=
  ⟨run.store, run.fired⟩

/-- What chaining sees of a finished run. -/
def outcomeOf (finished : Run.Finished) : Outcome :=
  ⟨finished.run.store, finished.run.fired, finished.passes, finished.boundReached⟩

/-- Whether a criterion judges the actions of a rule as an engine does. -/
def Agrees (rule : Rule) (store : Store) : Prop :=
  criterion (performAll store rule.actions) = mayHaveChanged (performAll store rule.actions)

/-- Whether a criterion does so at all turns at which actions were performed. -/
def AgreesAt (turns : List Turn) : Prop :=
  ∀ turn ∈ turns, turn.attempted = true → Agrees criterion turn.rule turn.store

variable {criterion} {rule : Rule} {rules : List Rule} {number : Nat} {run : Run}

/-- Without refraction no rule is suppressed. -/
theorem not_suppressed (history : History) (store : Store) :
    ¬ Run.Suppressed false rule history store := by
  simp [Run.Suppressed, Run.isSuppressed]

private theorem turn_of_holds {state : State} (holds : rule.Holds state.store) :
    turn criterion rule state =
      (⟨(performAll state.store rule.actions).store,
        if (performAll state.store rule.actions).fault?.isNone then state.fired ++ [rule.name]
        else state.fired⟩,
        criterion (performAll state.store rule.actions)) := by
  rw [turn, holds]
  rfl

theorem turn_of_not_holds {state : State} (notHolding : ¬ rule.Holds state.store) :
    turn criterion rule state = (state, false) := by
  rw [turn]
  split
  · next holds => exact absurd holds notHolding
  · rfl

private theorem turn_seen (agrees : rule.Holds run.store → Agrees criterion rule run.store) :
    turn criterion rule (seen run) =
      (seen (Run.takeTurn false number rule run).1, (Run.takeTurn false number rule run).2) := by
  have possible := Run.takeTurn_cases false number rule run
  generalize Run.takeTurn false number rule run = result at *
  cases possible with
  | conditionFailed fault failed =>
      have notHolding : ¬ rule.Holds run.store := by
        rw [Rule.Holds, failed]
        intro holds
        cases holds
      exact turn_of_not_holds notHolding
  | notHolding notHolding => exact turn_of_not_holds notHolding
  | suppressed _ suppressed => exact absurd suppressed (not_suppressed run.history run.store)
  | attempted holds _ =>
      have judged : criterion (performAll run.store rule.actions) = _ := agrees holds
      rw [turn_of_holds holds, seen, seen, Run.attempt_store, Run.attempt_fired,
        Run.attempt_changed, judged]
      rfl

private theorem pass_seen (agrees : AgreesAt criterion (Run.passTurns false number rules run)) :
    pass criterion rules (seen run) =
      (seen (Run.takePass false number rules run).1, (Run.takePass false number rules run).2) := by
  have folded (flag : Bool) :
      rules.foldl (turnInPass criterion) (seen run, flag) =
        (seen (Run.takePass false number rules run).1,
          flag || (Run.takePass false number rules run).2) := by
    induction rules generalizing run flag with
    | nil => simp [Run.takePass]
    | cons rule rules inductionHypothesis =>
        have agreesFirst : rule.Holds run.store → Agrees criterion rule run.store := by
          intro holds
          have attempted : (Run.turn false number rule run).attempted = true :=
            Run.attempted_turn_iff.2 ⟨holds, not_suppressed run.history run.store⟩
          exact agrees _ List.mem_cons_self attempted
        have agreesLater : AgreesAt criterion
            (Run.passTurns false number rules (Run.takeTurn false number rule run).1) :=
          fun turn member => agrees turn (List.mem_cons_of_mem _ member)
        have first : turnInPass criterion (seen run, flag) rule =
            (seen (Run.takeTurn false number rule run).1,
              flag || (Run.takeTurn false number rule run).2) := by
          rw [turnInPass, turn_seen agreesFirst]
        rw [List.foldl_cons, first, inductionHypothesis agreesLater, Bool.or_assoc,
          Run.takePass_cons]
  simpa [pass] using folded false

private theorem loop_seen {left made : Nat}
    (agrees : AgreesAt criterion (Run.runTurns false rules left made run)) :
    loop criterion rules left made true (seen run) =
      outcomeOf (Run.takePasses false rules left made run) := by
  induction left generalizing made run with
  | zero => rfl
  | succ left inductionHypothesis =>
      rw [Run.runTurns] at agrees
      have agreesFirst : AgreesAt criterion (Run.passTurns false (made + 1) rules run) :=
        fun turn member => agrees turn (List.mem_append_left _ member)
      rw [loop, pass_seen agreesFirst]
      cases changed : (Run.takePass false (made + 1) rules run).2 with
      | true =>
          rw [Run.takePasses_of_changed changed]
          refine inductionHypothesis fun turn member => agrees turn ?_
          rw [changed, if_pos rfl]
          exact List.mem_append_right _ member
      | false =>
          rw [Run.takePasses_of_unchanged changed]
          cases left <;> rfl

private theorem agreesAt_mayHaveChanged (turns : List Turn) : AgreesAt mayHaveChanged turns :=
  fun _ _ _ => rfl

end Chaining

/-- Whether an action of a rule fails after another one has written a fact. -/
def Rule.FailsLate (rule : Rule) (store : Store) : Prop :=
  (Run.performAll store rule.actions).fault?.isSome = true ∧
    (Run.performAll store rule.actions).written ≠ []

/-- To count turns by what fired and by what was written is the same for a rule that does not fail
after a write. -/
theorem Chaining.agrees_hasFired {rule : Rule} {store : Store} (notLate : ¬ rule.FailsLate store) :
    Agrees hasFired rule store := by
  rw [Agrees, hasFired, mayHaveChanged]
  cases failed : (Run.performAll store rule.actions).fault? with
  | none => rfl
  | some fault =>
      have noWrite : (Run.performAll store rule.actions).written = [] := by
        refine Classical.byContradiction fun wrote => notLate ⟨?_, wrote⟩
        rw [failed]
        rfl
      rw [noWrite]
      rfl

namespace Engine

/-- What a run of an engine without refraction comes to, by a criterion that judges as the engine
does. -/
theorem outcomeOf_runOn {criterion : Run.Performed → Bool} {engine : Engine} {identity : String}
    {store : Store} (noRefraction : engine.settings.refraction = false)
    (agrees : Chaining.AgreesAt criterion (engine.turnsOn identity store)) :
    Chaining.outcomeOf (engine.runOn identity store) =
      Chaining.run criterion engine.base.bySalience engine.settings.maxPasses store := by
  rw [turnsOn, noRefraction] at agrees
  rw [runOn, noRefraction]
  exact (Chaining.loop_seen agrees).symm

/-- Without refraction, an engine chains its rules in the order of their turns and makes another
pass where the facts may have changed. In a run in which no action fails after another one of its
rule has written, it makes another pass just where a rule has fired. -/
theorem execute_of_no_refraction (engine : Engine) (identity : String) (store : Store)
    (idle : engine.phase.isRunning = false) (noRefraction : engine.settings.refraction = false) :
    ∃ after storeAfter report,
      engine.execute identity store = .ok (after, storeAfter, report) ∧
        (⟨storeAfter, report.fired, report.passes, report.boundReached⟩ : Chaining.Outcome) =
          Chaining.run Chaining.mayHaveChanged engine.base.bySalience engine.settings.maxPasses
            store ∧
        ((∀ turn ∈ engine.turnsOn identity store, turn.attempted = true →
            ¬ turn.rule.FailsLate turn.store) →
          (⟨storeAfter, report.fired, report.passes, report.boundReached⟩ : Chaining.Outcome) =
            Chaining.run Chaining.hasFired engine.base.bySalience engine.settings.maxPasses
              store) := by
  refine ⟨_, _, _, execute_of_idle idle, ?_, fun notLate => ?_⟩
  · exact outcomeOf_runOn noRefraction (Chaining.agreesAt_mayHaveChanged _)
  · refine outcomeOf_runOn noRefraction fun turn member attempted => ?_
    exact Chaining.agrees_hasFired (notLate turn member attempted)

/-- An engine without refraction whose only rule writes a fact and fails then. -/
private def halfDone : Engine :=
  { new ⟨3, .reject, false, by decide⟩ with
    base := ⟨.reject,
      [.undescribed "Broken" 0 (.bool true)
        [.assign (.fact "x") (.bool true), .assign (.fact "y") (.fact "missing")]],
      by decide⟩ }

theorem order_halfDone : halfDone.base.bySalience = halfDone.base.rules :=
  List.mergeSort_of_pairwise (by simp [halfDone])

theorem execute_of_no_refraction_halfDone :
    ∃ after storeAfter report,
      halfDone.execute "facts" ∅ = .ok (after, storeAfter, report) ∧
        (⟨storeAfter, report.fired, report.passes, report.boundReached⟩ : Chaining.Outcome) =
          Chaining.run Chaining.mayHaveChanged halfDone.base.rules 3 ∅ := by
  obtain ⟨after, storeAfter, report, executed, same, -⟩ :=
    execute_of_no_refraction halfDone "facts" ∅ rfl rfl
  rw [order_halfDone] at same
  exact ⟨after, storeAfter, report, executed, same⟩

/-- A pass in which no rule fires need not be the last one. -/
theorem not_only_hasFired :
    ¬ ∀ (engine after : Engine) (identity : String) (store storeAfter : Store) (report : Report),
      engine.settings.refraction = false →
        engine.execute identity store = .ok (after, storeAfter, report) →
          (⟨storeAfter, report.fired, report.passes, report.boundReached⟩ : Chaining.Outcome) =
            Chaining.run Chaining.hasFired engine.base.bySalience engine.settings.maxPasses
              store := by
  intro documented
  have same := documented halfDone _ "facts" ∅ _ _ rfl (execute_of_idle rfl)
  have passes : (halfDone.runOn "facts" ∅).passes =
      (Chaining.run Chaining.hasFired halfDone.base.bySalience 3 ∅).passes :=
    congrArg Chaining.Outcome.passes same
  rw [runOn, order_halfDone] at passes
  revert passes
  decide +kernel

end Engine

end Rulebook
