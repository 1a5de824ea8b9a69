import Mathlib.Data.List.Nodup
import Rulebook.Proofs.Engine.PassReport
import Rulebook.Proofs.Engine.Rest

/-!
# Reports and turns

What the report of a run tells of the turns. In each pass a rule fires or fails at most once, and
never both; firings and failures stand in the order of the turns, pass by pass. A run that was cut
off has made all the passes that it may, and one that came to rest has fired no rule in its last.
-/

namespace Rulebook

namespace PassReport

/-! ## The report of a pass -/

/-- How often the rule of a name has fired or failed in a pass. -/
def outcomes (report : PassReport) (name : String) : Nat :=
  report.fired.count name + (report.failures.map Failure.rule).count name

/-- What was reported in some turns and in those behind them. -/
def append (report later : PassReport) : PassReport :=
  ⟨report.fired ++ later.fired, report.failures ++ later.failures⟩

/-- `InTurn names pass report` means that the report is one of turns that rules of some names have
taken in this order: each of them has fired, has failed or has done neither. -/
structure InTurn (names : List String) (pass : Nat) (report : PassReport) : Prop where
  fired : report.fired.Sublist names
  failed : (report.failures.map Failure.rule).Sublist names
  numbered : ∀ failure ∈ report.failures, failure.pass = pass
  outcomes : ∀ name, report.outcomes name ≤ names.count name

variable {names others : List String} {pass made index : Nat} {report later : PassReport}
  {reports : List PassReport}

theorem InTurn.nil (pass : Nat) : InTurn [] pass ⟨[], []⟩ :=
  ⟨.slnil, .slnil, fun _ member => absurd member List.not_mem_nil, fun _ => Nat.le_refl 0⟩

theorem InTurn.append (inTurn : InTurn names pass report) (inTurnLater : InTurn others pass later) :
    InTurn (names ++ others) pass (report.append later) := by
  refine ⟨inTurn.fired.append inTurnLater.fired, ?_, fun failure member => ?_, fun name => ?_⟩
  · rw [PassReport.append, List.map_append]
    exact inTurn.failed.append inTurnLater.failed
  · rcases List.mem_append.1 member with isEarlier | isLater
    · exact inTurn.numbered failure isEarlier
    · exact inTurnLater.numbered failure isLater
  · have atMost := inTurn.outcomes name
    have atMostLater := inTurnLater.outcomes name
    simp only [PassReport.outcomes, PassReport.append, List.map_append, List.count_append] at *
    omega

/-! ## The reports of several passes -/

/-- `InTurns names made reports` means that in each of several passes, which follow those that were
already made, the rules of some names have taken their turns in this order. -/
inductive InTurns (names : List String) : Nat → List PassReport → Prop
  | nil (made : Nat) :
      InTurns names made []
  | cons {made : Nat} {report : PassReport} {reports : List PassReport} :
      InTurn names (made + 1) report →
      InTurns names (made + 1) reports →
      InTurns names made (report :: reports)

/-- Each failure of several passes belongs to one of them. -/
theorem InTurns.pass_mem (inTurns : InTurns names made reports) :
    ∀ failure ∈ reports.flatMap failures,
      made < failure.pass ∧ failure.pass ≤ made + reports.length := by
  induction inTurns with
  | nil made => exact fun _ member => absurd member List.not_mem_nil
  | @cons made report reports inTurn _ inductionHypothesis =>
      intro failure member
      rw [List.flatMap_cons] at member
      rw [List.length_cons]
      rcases List.mem_append.1 member with isFirst | isLater
      · have isNumber : failure.pass = made + 1 := inTurn.numbered failure isFirst
        omega
      · have bounds := inductionHypothesis failure isLater
        omega

/-- Failures are reported pass by pass. -/
theorem InTurns.pairwise (inTurns : InTurns names made reports) :
    (reports.flatMap failures).Pairwise fun failure later => failure.pass ≤ later.pass := by
  induction inTurns with
  | nil made => exact .nil
  | @cons made report reports inTurn inTurnsLater inductionHypothesis =>
      rw [List.flatMap_cons, List.pairwise_append]
      refine ⟨?_, inductionHypothesis, fun failure isFirst later isLater => ?_⟩
      · apply List.pairwise_of_forall_mem_list
        intro failure member later memberToo
        have isNumber : failure.pass = made + 1 := inTurn.numbered failure member
        have isNumberToo : later.pass = made + 1 := inTurn.numbered later memberToo
        omega
      · have isNumber : failure.pass = made + 1 := inTurn.numbered failure isFirst
        have bounds := inTurnsLater.pass_mem later isLater
        omega

theorem InTurn.filter_failures (inTurn : InTurn names pass report) :
    (report.failures.filter fun failure => failure.pass = pass) = report.failures := by
  apply List.filter_eq_self.2
  intro failure member
  exact decide_eq_true (inTurn.numbered failure member)

theorem filter_failures_eq_nil {failures : List Failure}
    (absent : ∀ failure ∈ failures, failure.pass ≠ pass) :
    (failures.filter fun failure => failure.pass = pass) = [] := by
  apply List.filter_eq_nil_iff.2
  intro failure member isNumber
  exact absent failure member (of_decide_eq_true isNumber)

/-- The failures of a pass are those that are reported with its number. -/
theorem InTurns.of_getElem?_eq_some (inTurns : InTurns names made reports)
    (isReport : reports[index]? = some report) :
    InTurn names (made + index + 1) report ∧
      ((reports.flatMap failures).filter fun failure => failure.pass = made + index + 1) =
        report.failures := by
  induction inTurns generalizing index with
  | nil made => cases isReport
  | @cons made first reports inTurn inTurnsLater inductionHypothesis =>
      rw [List.flatMap_cons, List.filter_append]
      cases index with
      | zero =>
          injection isReport with same
          subst same
          have notLater : ∀ failure ∈ reports.flatMap failures, failure.pass ≠ made + 0 + 1 := by
            intro failure member
            have bounds := inTurnsLater.pass_mem failure member
            omega
          rw [filter_failures_eq_nil notLater, List.append_nil]
          exact ⟨inTurn, inTurn.filter_failures⟩
      | succ index =>
          obtain ⟨inTurnLater, ofPass⟩ := inductionHypothesis isReport
          -- the passes behind the first one are counted from it
          have number : made + 1 + index + 1 = made + (index + 1) + 1 := by omega
          rw [number] at inTurnLater ofPass
          have notFirst : ∀ failure ∈ first.failures, failure.pass ≠ made + (index + 1) + 1 := by
            intro failure member
            have isNumber : failure.pass = made + 1 := inTurn.numbered failure member
            omega
          rw [filter_failures_eq_nil notFirst, ofPass, List.nil_append]
          exact ⟨inTurnLater, rfl⟩

end PassReport

namespace Run

variable {refraction : Bool} {pass : Nat} {rule : Rule} {rules : List Rule} {run : Run}
  {allowed made : Nat}

/-! ## Turns and passes -/

private theorem failure?_of_hasFired {store : Store} {last? : Option Signature}
    (hasFired : (effect refraction rule store last?).hasFired = true) :
    (effect refraction rule store last?).failure? = none := by
  rcases effect_cases refraction rule store last? with attempted | unattempted
  · rw [attempted] at hasFired ⊢
    have noFault : (performAll store rule.actions).fault? = none :=
      Option.isNone_iff_eq_none.1 hasFired
    rw [attemptEffect, noFault]
    rfl
  · rw [unattempted] at hasFired
    cases hasFired

private theorem reportBetween_takeTurn (refraction : Bool) (pass : Nat) (rule : Rule) (run : Run) :
    let added := effect refraction rule run.store (run.history.get? rule.name)
    reportBetween run (takeTurn refraction pass rule run).1 =
      ⟨added.fired rule, added.failures pass rule⟩ := by
  rw [takeTurn_eq]
  simp only [reportBetween, Effect.addTo, List.drop_left]

private theorem inTurn_takeTurn (refraction : Bool) (pass : Nat) (rule : Rule) (run : Run) :
    PassReport.InTurn [rule.name] pass
      (reportBetween run (takeTurn refraction pass rule run).1) := by
  rw [reportBetween_takeTurn]
  have oneOutcome := @failure?_of_hasFired refraction rule run.store (run.history.get? rule.name)
  generalize effect refraction rule run.store (run.history.get? rule.name) = added at oneOutcome
  cases hasFired : added.hasFired with
  | true =>
      have fired : added.fired rule = [rule.name] := by rw [Effect.fired, hasFired, if_pos rfl]
      have failures : added.failures pass rule = [] := by
        rw [Effect.failures, oneOutcome hasFired]
        rfl
      rw [fired, failures]
      exact ⟨.refl _, List.nil_sublist _, fun _ member => absurd member List.not_mem_nil,
        fun name => Nat.le_refl _⟩
  | false =>
      have fired : added.fired rule = [] := by
        rw [Effect.fired, hasFired, if_neg Bool.false_ne_true]
      rw [fired, Effect.failures]
      cases added.failure? with
      | none =>
          exact ⟨List.nil_sublist _, List.nil_sublist _,
            fun _ member => absurd member List.not_mem_nil, fun name => Nat.zero_le _⟩
      | some failure =>
          refine ⟨List.nil_sublist _, .refl _, fun other member => ?_, fun name => ?_⟩
          · rw [List.mem_singleton.1 member]
          · exact Nat.le_of_eq (Nat.zero_add _)

theorem Grows.reportBetween_append {first second third : Run} (grows : Grows first second)
    (growsLater : Grows second third) :
    (reportBetween first second).append (reportBetween second third) =
      reportBetween first third := by
  have fired : first.fired ++ ((reportBetween first second).fired ++
      (reportBetween second third).fired) = first.fired ++ (reportBetween first third).fired := by
    rw [← List.append_assoc, grows.fired_eq, growsLater.fired_eq,
      (grows.trans growsLater).fired_eq]
  have failures : first.failures ++ ((reportBetween first second).failures ++
      (reportBetween second third).failures) =
        first.failures ++ (reportBetween first third).failures := by
    rw [← List.append_assoc, grows.failures_eq, growsLater.failures_eq,
      (grows.trans growsLater).failures_eq]
  exact congrArg₂ PassReport.mk (List.append_cancel_left fired) (List.append_cancel_left failures)

private theorem inTurn_takePass (refraction : Bool) (pass : Nat) (rules : List Rule) (run : Run) :
    PassReport.InTurn (ruleNames rules) pass
      (reportBetween run (takePass refraction pass rules run).1) := by
  induction rules generalizing run with
  | nil =>
      have nothing : reportBetween run run = ⟨[], []⟩ := by
        rw [reportBetween, List.drop_length, List.drop_length]
      show PassReport.InTurn [] pass (reportBetween run run)
      rw [nothing]
      exact .nil pass
  | cons rule rules inductionHypothesis =>
      have grows : Grows run (takeTurn refraction pass rule run).1 := grows_takeTurn
      rw [takePass_cons, ← grows.reportBetween_append grows_takePass]
      exact (inTurn_takeTurn refraction pass rule run).append
        (inductionHypothesis (takeTurn refraction pass rule run).1)

/-! ## Runs -/

private theorem inTurns_passReports (refraction : Bool) (rules : List Rule) (allowed made : Nat)
    (run : Run) :
    PassReport.InTurns (ruleNames rules) made (passReports refraction rules allowed made run) := by
  induction allowed generalizing made run with
  | zero => exact .nil made
  | succ allowed inductionHypothesis =>
      rw [passReports]
      refine .cons (inTurn_takePass refraction (made + 1) rules run) ?_
      cases (takePass refraction (made + 1) rules run).2 with
      | true => exact inductionHypothesis (made + 1) (takePass refraction (made + 1) rules run).1
      | false => exact .nil (made + 1)

/-- A run makes no more passes than it may, and all of them if it is cut off. -/
theorem takePasses_passes (refraction : Bool) (rules : List Rule) (allowed made : Nat) (run : Run) :
    made ≤ (takePasses refraction rules allowed made run).passes ∧
      (takePasses refraction rules allowed made run).passes ≤ made + allowed ∧
      ((takePasses refraction rules allowed made run).boundReached = true →
        (takePasses refraction rules allowed made run).passes = made + allowed) := by
  induction allowed generalizing made run with
  | zero => exact ⟨Nat.le_refl made, Nat.le_refl made, fun _ => rfl⟩
  | succ allowed inductionHypothesis =>
      cases changed : (takePass refraction (made + 1) rules run).2 with
      | true =>
          obtain ⟨atLeast, atMost, ofCutOff⟩ :=
            inductionHypothesis (made + 1) (takePass refraction (made + 1) rules run).1
          rw [takePasses_of_changed changed]
          refine ⟨by omega, by omega, fun cutOff => ?_⟩
          have all := ofCutOff cutOff
          omega
      | false =>
          rw [takePasses_of_unchanged changed]
          refine ⟨Nat.le_succ made, ?_, fun cutOff => Bool.noConfusion cutOff⟩
          exact Nat.add_le_add_left (Nat.succ_pos allowed) made

private theorem takePasses_passes_pos (refraction : Bool) (rules : List Rule) (positive : 0 < allowed)
    (made : Nat) (run : Run) :
    made < (takePasses refraction rules allowed made run).passes := by
  obtain ⟨fewer, rfl⟩ := Nat.exists_eq_add_one.2 positive
  cases changed : (takePass refraction (made + 1) rules run).2 with
  | true =>
      rw [takePasses_of_changed changed]
      exact (takePasses_passes refraction rules fewer (made + 1) _).1
  | false =>
      rw [takePasses_of_unchanged changed]
      exact Nat.lt_succ_self made

/-- Where a run comes to rest, no rule fires in its last pass. -/
theorem getLast?_passReports (distinct : (ruleNames rules).Nodup)
    (atRest : (takePasses refraction rules allowed made run).boundReached = false) :
    ∃ last, (passReports refraction rules allowed made run).getLast? = some last ∧
      last.fired = [] := by
  induction allowed generalizing made run with
  | zero => cases atRest
  | succ allowed inductionHypothesis =>
      rw [passReports]
      cases changed : (takePass refraction (made + 1) rules run).2 with
      | true =>
          rw [takePasses_of_changed changed] at atRest
          obtain ⟨last, isLast, noneFired⟩ := inductionHypothesis atRest
          rw [if_pos rfl, List.getLast?_cons, isLast]
          exact ⟨last, rfl, noneFired⟩
      | false =>
          have unmoved := (rests_of_takePass_unchanged distinct changed).1
          refine ⟨_, rfl, ?_⟩
          rw [reportBetween, unmoved.fired]
          exact List.drop_length

end Run

namespace Engine

/-- The report of a run tells of every turn. The firings are those of the passes, one pass after
another, and so are the failures, each with the number of its pass; in a pass both stand in the
order of the turns, and no rule has more than one outcome. A run that was cut off has made all the
passes that it may, while in the last pass of one that came to rest no rule has fired. -/
theorem execute_accounts_for_turns (engine : Engine) (identity : String) (store : Store)
    (idle : engine.phase.isRunning = false) :
    ∃ after storeAfter report,
      engine.execute identity store = .ok (after, storeAfter, report) ∧
        (1 ≤ report.passes ∧ report.passes ≤ engine.settings.maxPasses) ∧
        (engine.passReportsOn identity store).length = report.passes ∧
        report.fired = (engine.passReportsOn identity store).flatMap PassReport.fired ∧
        (ruleNames engine.base.bySalience).Nodup ∧
        (∀ index pass, (engine.passReportsOn identity store)[index]? = some pass →
          pass.fired.Sublist (ruleNames engine.base.bySalience) ∧
            (report.failures.filter fun failure => failure.pass = index + 1) = pass.failures ∧
            (pass.failures.map Failure.rule).Sublist (ruleNames engine.base.bySalience) ∧
            ∀ name, pass.outcomes name ≤ 1) ∧
        (∀ failure ∈ report.failures, 1 ≤ failure.pass ∧ failure.pass ≤ report.passes) ∧
        (report.failures.Pairwise fun failure later => failure.pass ≤ later.pass) ∧
        (report.boundReached = true → report.passes = engine.settings.maxPasses) ∧
        (report.boundReached = false →
          ∃ last, (engine.passReportsOn identity store).getLast? = some last ∧
            last.fired = []) := by
  have inTurns : PassReport.InTurns (ruleNames engine.base.bySalience) 0
      (engine.passReportsOn identity store) :=
    Run.inTurns_passReports engine.settings.refraction engine.base.bySalience
      engine.settings.maxPasses 0 (Run.start store (engine.historyOf identity))
  have distinct := engine.base.nodup_bySalience
  obtain ⟨isFired, isFailures, isPasses⟩ := engine.report_eq_passReportsOn identity store
  obtain ⟨_, atMost, ofCutOff⟩ := Run.takePasses_passes engine.settings.refraction
    engine.base.bySalience engine.settings.maxPasses 0
    (Run.start store (engine.historyOf identity))
  have atLeast := Run.takePasses_passes_pos engine.settings.refraction engine.base.bySalience
    engine.settings.positive 0 (Run.start store (engine.historyOf identity))
  rw [Nat.zero_add] at atMost ofCutOff
  refine ⟨_, _, _, execute_of_idle idle, ⟨atLeast, atMost⟩, isPasses.symm, isFired, distinct,
    fun index pass isPass => ?_, fun failure member => ?_, ?_, ofCutOff, fun atRest => ?_⟩
  · obtain ⟨inTurn, ofPass⟩ := inTurns.of_getElem?_eq_some isPass
    rw [Nat.zero_add] at ofPass
    refine ⟨inTurn.fired, ?_, inTurn.failed, fun name => ?_⟩
    · show (engine.runOn identity store).run.failures.filter _ = pass.failures
      rw [isFailures]
      exact ofPass
    · exact Nat.le_trans (inTurn.outcomes name) (List.nodup_iff_count_le_one.1 distinct name)
  · show 1 ≤ failure.pass ∧ failure.pass ≤ (engine.runOn identity store).passes
    have isMember : failure ∈ (engine.runOn identity store).run.failures := member
    rw [isFailures] at isMember
    have bounds := inTurns.pass_mem failure isMember
    omega
  · show (engine.runOn identity store).run.failures.Pairwise _
    rw [isFailures]
    exact inTurns.pairwise
  · exact Run.getLast?_passReports distinct atRest

/-- A rule that makes its own condition fail. -/
private def spoiling : Engine :=
  { new .standard with
    base := ⟨.reject,
      [.undescribed "Spoil" 0 (.unary .not (.fact "done")) [.assign (.fact "done") .null]],
      by decide⟩ }

private def undone : Store :=
  (∅ : Store).set "done" (.bool false)

theorem execute_accounts_for_turns_spoiling :
    spoiling.phase.isRunning = false ∧ ∃ after storeAfter report,
      spoiling.execute "facts" undone = .ok (after, storeAfter, report) ∧
        (spoiling.passReportsOn "facts" undone).map PassReport.fired = [["Spoil"], []] ∧
        report.passes = 2 ∧ report.fired = ["Spoil"] ∧
        (report.failures.map fun failure => (failure.rule, failure.pass)) = [("Spoil", 2)] ∧
        ∃ last, (spoiling.passReportsOn "facts" undone).getLast? = some last ∧
          last.fired = [] := by
  refine ⟨rfl, ?_⟩
  obtain ⟨after, storeAfter, report, executed, _, isPasses, isFired, _, _, _, _, _, ofRest⟩ :=
    execute_accounts_for_turns spoiling "facts" undone rfl
  have isReport : Report.ofFinished (spoiling.runOn "facts" undone) = report :=
    (execute_eq_ok_iff.1 executed).2.2.2
  have segments : (spoiling.passReportsOn "facts" undone).map PassReport.fired =
      [["Spoil"], []] := by
    decide +kernel
  have passes : report.passes = 2 := by
    have sameLength := congrArg List.length segments
    rw [List.length_map, isPasses] at sameLength
    exact sameLength
  have fired : report.fired = ["Spoil"] := by
    rw [isFired, List.flatMap_def, segments]
    rfl
  have failures : (report.failures.map fun failure => (failure.rule, failure.pass)) =
      [("Spoil", 2)] := by
    rw [← isReport]
    decide +kernel
  have atRest : report.boundReached = false := by
    rw [← isReport]
    decide +kernel
  exact ⟨after, storeAfter, report, executed, segments, passes, fired, failures, ofRest atRest⟩

end Engine

end Rulebook
