import Rulebook.Proofs.Engine.Effect
import Rulebook.Proofs.Engine.Execution

/-!
# Reports of passes

What each pass of a run adds to its report. One after another, the reports of the passes make up the
report of the run.
-/

namespace Rulebook

/-- The rules that fire in a pass and the failures in it, in order. -/
structure PassReport where
  fired : List String
  failures : List Failure

namespace Run

variable {refraction : Bool} {pass : Nat} {rule : Rule} {rules : List Rule} {run : Run}

/-- What is reported between two moments of a run. -/
def reportBetween (before after : Run) : PassReport :=
  ⟨after.fired.drop before.fired.length, after.failures.drop before.failures.length⟩

def passReports (refraction : Bool) (rules : List Rule) : (allowed made : Nat) → Run →
    List PassReport
  | 0, _, _ => []
  | allowed + 1, made, run =>
    reportBetween run (takePass refraction (made + 1) rules run).1 ::
      if (takePass refraction (made + 1) rules run).2 then
        passReports refraction rules allowed (made + 1)
          (takePass refraction (made + 1) rules run).1
      else []

/-! ## Growing reports -/

/-- `Grows before after` means that what was reported at one moment of a run is still reported, in
front of all else, at a later one. -/
structure Grows (before after : Run) : Prop where
  fired : before.fired <+: after.fired
  failures : before.failures <+: after.failures

theorem Grows.trans {first second third : Run} (before : Grows first second)
    (behind : Grows second third) : Grows first third :=
  ⟨before.fired.trans behind.fired, before.failures.trans behind.failures⟩

theorem grows_takeTurn : Grows run (takeTurn refraction pass rule run).1 := by
  rw [takeTurn_eq]
  exact ⟨List.prefix_append _ _, List.prefix_append _ _⟩

theorem grows_takePass : Grows run (takePass refraction pass rules run).1 := by
  induction rules generalizing run with
  | nil => exact ⟨List.prefix_refl _, List.prefix_refl _⟩
  | cons rule rules inductionHypothesis =>
      rw [takePass_cons]
      exact grows_takeTurn.trans inductionHypothesis

theorem Grows.fired_eq {before after : Run} (grows : Grows before after) :
    before.fired ++ (reportBetween before after).fired = after.fired :=
  List.prefix_iff_eq_append.1 grows.fired

theorem Grows.failures_eq {before after : Run} (grows : Grows before after) :
    before.failures ++ (reportBetween before after).failures = after.failures :=
  List.prefix_iff_eq_append.1 grows.failures

/-! ## All passes -/

/-- The reports of the passes of a run, one after another, are what the run adds to its report. -/
theorem takePasses_passReports (refraction : Bool) (rules : List Rule) (allowed made : Nat)
    (run : Run) :
    run.fired ++ (passReports refraction rules allowed made run).flatMap PassReport.fired =
        (takePasses refraction rules allowed made run).run.fired ∧
      run.failures ++ (passReports refraction rules allowed made run).flatMap PassReport.failures =
        (takePasses refraction rules allowed made run).run.failures ∧
      made + (passReports refraction rules allowed made run).length =
        (takePasses refraction rules allowed made run).passes := by
  induction allowed generalizing made run with
  | zero => exact ⟨List.append_nil _, List.append_nil _, rfl⟩
  | succ allowed inductionHypothesis =>
      have grows : Grows run (takePass refraction (made + 1) rules run).1 := grows_takePass
      obtain ⟨fired, failures, passes⟩ :=
        inductionHypothesis (made + 1) (takePass refraction (made + 1) rules run).1
      rw [passReports, List.flatMap_cons, List.flatMap_cons, ← List.append_assoc,
        ← List.append_assoc, grows.fired_eq, grows.failures_eq, List.length_cons]
      cases changed : (takePass refraction (made + 1) rules run).2 with
      | true =>
          rw [takePasses_of_changed changed, if_pos rfl]
          exact ⟨fired, failures, by omega⟩
      | false =>
          rw [takePasses_of_unchanged changed, if_neg Bool.false_ne_true]
          exact ⟨List.append_nil _, List.append_nil _, rfl⟩

end Run

namespace Engine

def passReportsOn (engine : Engine) (identity : String) (store : Store) : List PassReport :=
  Run.passReports engine.settings.refraction engine.base.bySalience engine.settings.maxPasses 0
    (Run.start store (engine.historyOf identity))

/-- The report of a run is what its passes report, one after the other. -/
theorem report_eq_passReportsOn (engine : Engine) (identity : String) (store : Store) :
    (engine.runOn identity store).run.fired =
        (engine.passReportsOn identity store).flatMap PassReport.fired ∧
      (engine.runOn identity store).run.failures =
        (engine.passReportsOn identity store).flatMap PassReport.failures ∧
      (engine.runOn identity store).passes = (engine.passReportsOn identity store).length := by
  obtain ⟨fired, failures, passes⟩ :=
    Run.takePasses_passReports engine.settings.refraction engine.base.bySalience
      engine.settings.maxPasses 0 (Run.start store (engine.historyOf identity))
  rw [Nat.zero_add] at passes
  exact ⟨fired.symm, failures.symm, passes.symm⟩

end Engine

end Rulebook
