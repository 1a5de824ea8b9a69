import Rulebook.Proofs.Engine.Conflicts
import Rulebook.Proofs.Engine.Failures
import Rulebook.Rule.Logic

/-!
# Engines that can be analysed

Engines that can be analysed. An engine takes up rules whatever their actions are, while the
analysis has a result only where they assign to paths. Rules that are read from texts do; one that
does not has an action that fails on all facts.
-/

namespace Rulebook

namespace Expr

variable {actions : List Expr} {target value : Expr}

/-- Where it is known which facts actions assign, all targets are paths. -/
theorem isPath_of_assignedFacts? {roots : List String} (known : assignedFacts? actions = some roots)
    (member : .assign target value ∈ actions) : target.isPath = true := by
  obtain ⟨found, collected, -⟩ := assignedFacts?_eq_some_iff.1 known
  clear known
  induction actions generalizing found with
  | nil => cases member
  | cons action actions inductionHypothesis =>
      rw [List.filterMapM_cons] at collected
      obtain ⟨first?, isFirst, rest⟩ := Option.bind_eq_some_iff.1 collected
      rcases List.mem_cons.1 member with rfl | later
      · obtain ⟨root, isRoot, -⟩ := Option.map_eq_some_iff.1 isFirst
        rw [isPath, isRoot]
        rfl
      · cases first? with
        | none => exact inductionHypothesis later found rest
        | some first =>
            obtain ⟨others, collectedLater, -⟩ := Option.bind_eq_some_iff.1 rest
            exact inductionHypothesis later others collectedLater

/-- An assignment to what is no path fails on all facts. -/
theorem perform_assign_of_not_isPath (noPath : target.isPath = false) (store : Store) :
    ∃ fault, (assign target value).perform store = .error fault := by
  cases performed : (assign target value).perform store with
  | error fault => exact ⟨fault, rfl⟩
  | ok result =>
      obtain ⟨written, -, performed⟩ := bind_eq_ok_iff.1 performed
      obtain ⟨⟨root, steps⟩, located, -⟩ := bind_eq_ok_iff.1 performed
      rw [isPath, root?_of_locateBefore located] at noPath
      cases noPath

end Expr

/-- Whether a rule assigns to paths only. -/
def Rule.AssignsToPaths (rule : Rule) : Prop :=
  ∀ target value, .assign target value ∈ rule.actions → target.isPath = true

/-- A rule that was read from a text assigns to paths alone. -/
theorem Rule.IsParsed.assignsToPaths {rule : Rule} (parsed : rule.IsParsed) :
    rule.AssignsToPaths := by
  intro target value member
  cases parsed.assigns_on_top.2 _ member with
  | evaluated free =>
      rw [Expr.hasAssignment_assign] at free
      cases free
  | assigned path _ _ => exact path

/-- The footprint of a rule can be told exactly if it assigns to paths alone. -/
theorem Footprint.isSome_ofRule?_iff {rule : Rule} :
    (ofRule? rule).isSome = true ↔ rule.AssignsToPaths := by
  constructor
  · intro hasFootprint target value member
    rw [ofRule?, Option.isSome_map] at hasFootprint
    obtain ⟨roots, known⟩ := Option.isSome_iff_exists.1 hasFootprint
    exact Expr.isPath_of_assignedFacts? known member
  · intro paths
    rw [ofRule?_of_paths paths]
    rfl

theorem Footprint.isSome_ofRule?_of_mapM {rules : List Rule} {footprints : List Footprint}
    (collected : rules.mapM ofRule? = some footprints) :
    ∀ rule ∈ rules, (ofRule? rule).isSome = true := by
  induction rules generalizing footprints with
  | nil => exact List.forall_mem_nil _
  | cons rule rules inductionHypothesis =>
      rw [List.mapM_cons] at collected
      obtain ⟨footprint, isFirst, rest⟩ := Option.bind_eq_some_iff.1 collected
      obtain ⟨others, collectedLater, -⟩ := Option.bind_eq_some_iff.1 rest
      refine List.forall_mem_cons.2 ⟨?_, inductionHypothesis collectedLater⟩
      rw [isFirst]
      rfl

namespace Engine

variable {engine after : Engine}

/-! ## Rules that are added and taken away -/

/-- A call that changes the rules of an engine. -/
inductive Call where
  | add (rule : Rule)
  | remove (name : String)

def call (engine : Engine) : Call → Except Fault Engine
  | .add rule => engine.addRule rule
  | .remove name => (engine.removeRule name).map Prod.fst

/-- An engine after calls, unless it refuses one. -/
def afterCalls (engine : Engine) : List Call → Except Fault Engine
  | [] => .ok engine
  | call :: calls => do
    let after ← engine.call call
    after.afterCalls calls

private theorem mem_rules_of_call {call : Call} {rule : Rule} (called : engine.call call = .ok after)
    (member : rule ∈ after.base.rules) : rule ∈ engine.base.rules ∨ .add rule = call := by
  cases call with
  | add added =>
      rcases mem_rules_of_addRule called member with rfl | isOld
      · exact .inr rfl
      · exact .inl isOld
  | remove name =>
      obtain ⟨⟨other, removed?⟩, removed, rfl⟩ := exists_of_map_eq_ok called
      obtain ⟨-, -, same⟩ := removeRule_eq_ok removed
      rw [← same] at member
      exact .inl (List.mem_of_mem_filter member)

private theorem mem_rules_of_afterCalls {calls : List Call} {rule : Rule}
    (called : engine.afterCalls calls = .ok after) (member : rule ∈ after.base.rules) :
    rule ∈ engine.base.rules ∨ .add rule ∈ calls := by
  induction calls generalizing engine with
  | nil =>
      cases called
      exact .inl member
  | cons call calls inductionHypothesis =>
      obtain ⟨between, calledFirst, calledLater⟩ := bind_eq_ok_iff.1 called
      rcases inductionHypothesis calledLater with before | isLater
      · rcases mem_rules_of_call calledFirst before with isOld | isNow
        · exact .inl isOld
        · exact .inr (isNow ▸ List.mem_cons_self)
      · exact .inr (List.mem_cons_of_mem call isLater)

/-! ## The analysis -/

/-- The analysis of an engine succeeds exactly if all its rules assign to paths alone. -/
theorem isSome_analyze?_iff :
    engine.analyze?.isSome = true ↔ ∀ rule ∈ engine.base.rules, rule.AssignsToPaths := by
  constructor
  · intro analyzed rule member
    obtain ⟨analysis, isAnalysis⟩ := Option.isSome_iff_exists.1 analyzed
    obtain ⟨footprints, collected, -⟩ := Option.bind_eq_some_iff.1 isAnalysis
    have isSorted : rule ∈ engine.base.bySalience := engine.base.perm_bySalience.mem_iff.2 member
    exact Footprint.isSome_ofRule?_iff.1 (Footprint.isSome_ofRule?_of_mapM collected rule isSorted)
  · intro paths
    obtain ⟨analysis, isAnalysis, -⟩ := analyze?_of_paths paths
    rw [isAnalysis]
    rfl

/-- The analysis of rules that assign to paths covers them all. -/
theorem analyze?_covers (paths : ∀ rule ∈ engine.base.rules, rule.AssignsToPaths) :
    ∃ analysis, engine.analyze? = some analysis ∧
      analysis.total = engine.base.rules.length ∧
      analysis.footprints = engine.base.bySalience.map Footprint.ofPaths := by
  have found := Footprint.mapM_ofRule?_of_paths fun rule member =>
    paths rule (engine.base.perm_bySalience.mem_iff.1 member)
  rw [analyze?, Analysis.ofRules?, found]
  exact ⟨_, rfl, engine.base.perm_bySalience.length_eq, rfl⟩

/-- An engine that cannot be analysed has a rule with an action that fails on all facts. -/
theorem exists_failing_of_analyze? (notAnalyzed : engine.analyze? = none) :
    ∃ rule ∈ engine.base.rules, ∃ action ∈ rule.actions,
      ∀ store, ∃ fault, action.perform store = .error fault := by
  have notAll : ¬ ∀ rule ∈ engine.base.rules, rule.AssignsToPaths := by
    rw [← isSome_analyze?_iff, notAnalyzed]
    exact Bool.false_ne_true
  simp only [Rule.AssignsToPaths, not_forall, Bool.not_eq_true] at notAll
  obtain ⟨rule, registered, target, value, member, noPath⟩ := notAll
  exact ⟨rule, registered, _, member, Expr.perform_assign_of_not_isPath noPath⟩

/-- After rules were added and taken away, an engine can be analysed just where all its rules assign
to paths. So it is where all rules that it had, and all that were added, are read from texts or
assign to paths; the analysis then covers each rule. Where it cannot be analysed, one of its rules
has an action that fails on all facts. -/
theorem analyze?_afterCalls {calls : List Call} (called : engine.afterCalls calls = .ok after) :
    (after.analyze?.isSome = true ↔ ∀ rule ∈ after.base.rules, rule.AssignsToPaths) ∧
      ((∀ rule, rule ∈ engine.base.rules ∨ .add rule ∈ calls →
          rule.IsParsed ∨ rule.AssignsToPaths) →
        ∃ analysis, after.analyze? = some analysis ∧
          analysis.total = after.base.rules.length ∧
          analysis.footprints = after.base.bySalience.map Footprint.ofPaths) ∧
      (after.analyze? = none →
        ∃ rule ∈ after.base.rules, ∃ action ∈ rule.actions,
          ∀ store, ∃ fault, action.perform store = .error fault) := by
  refine ⟨isSome_analyze?_iff, fun sound => ?_, exists_failing_of_analyze?⟩
  apply analyze?_covers
  intro rule registered
  rcases sound rule (mem_rules_of_afterCalls called registered) with parsed | paths
  · exact parsed.assignsToPaths
  · exact paths

def setting (target : Expr) : Rule :=
  .undescribed "set" 0 (.bool true) [.assign target (.bool true)]

/-- A text that ought to be the name of a fact. -/
def unnamed : Expr :=
  .string ⟨"total", by decide⟩

theorem setting_assignsToPaths_iff {target : Expr} :
    (setting target).AssignsToPaths ↔ target.isPath = true := by
  constructor
  · intro paths
    exact paths target (.bool true) (List.mem_singleton_self _)
  · intro path other value member
    cases List.mem_singleton.1 member
    exact path

theorem exists_afterCalls_setting (target : Expr) :
    ∃ after, (new .standard).afterCalls [.add (setting target)] = .ok after ∧
      after.base.rules = [setting target] := by
  have free : (Expr.bool true).hasAssignment = false :=
    Expr.hasAssignment_eq_false_iff.2 ⟨rfl, List.forall_mem_nil _⟩
  simp [afterCalls, call, addRule, whenIdle, new, Phase.isRunning, addIdle, setting,
    Rule.undescribed, free, RuleBase.add?, RuleBase.contains, RuleBase.empty, forgetRule, bind,
    Except.bind]

theorem analyze?_of_unnamed (rules : engine.base.rules = [setting unnamed]) :
    engine.analyze? = none := by
  rw [← Option.not_isSome_iff_eq_none, isSome_analyze?_iff, rules, List.forall_mem_singleton,
    setting_assignsToPaths_iff]
  exact Bool.false_ne_true

theorem analyze?_afterCalls_setting :
    (∃ after, (new .standard).afterCalls [.add (setting (.fact "total"))] = .ok after ∧
      (∀ rule ∈ after.base.rules, rule.AssignsToPaths) ∧ after.analyze?.isSome = true ∧
      ∃ analysis, after.analyze? = some analysis ∧ analysis.total = after.base.rules.length ∧
        analysis.footprints = after.base.bySalience.map Footprint.ofPaths) ∧
    ∃ after, (new .standard).afterCalls [.add (setting unnamed)] = .ok after ∧
      after.analyze? = none ∧
      ∃ rule ∈ after.base.rules, ∃ action ∈ rule.actions,
        ∀ store, ∃ fault, action.perform store = .error fault := by
  constructor
  · obtain ⟨after, called, rules⟩ := exists_afterCalls_setting (.fact "total")
    have path : (setting (.fact "total")).AssignsToPaths := setting_assignsToPaths_iff.2 rfl
    have paths : ∀ rule ∈ after.base.rules, rule.AssignsToPaths := by
      rw [rules]
      exact List.forall_mem_singleton.2 path
    obtain ⟨analyzed_iff, covers, -⟩ := analyze?_afterCalls called
    refine ⟨after, called, paths, analyzed_iff.2 paths, covers ?_⟩
    rintro rule (isOld | isAdded)
    · cases isOld
    · cases List.mem_singleton.1 isAdded
      exact .inr path
  · obtain ⟨after, called, rules⟩ := exists_afterCalls_setting unnamed
    have notAnalyzed := analyze?_of_unnamed rules
    exact ⟨after, called, notAnalyzed, (analyze?_afterCalls called).2.2 notAnalyzed⟩

/-- The rule that assigns to a text, as an application hands it in. -/
theorem ofPlain_setting_unnamed :
    Rule.ofPlain (.mapping
      [(.text "name", .text "set"), (.text "when", .bool true),
        (.text "then",
          .list [Expr.applied "set" (.list [Expr.applied "str" (.text "total"), .bool true])])]) =
      .ok (setting unnamed) :=
  rfl

/-- An engine takes up a rule that is handed in and cannot be analysed with it. -/
theorem not_all_analyzed :
    ¬ ∀ (calls : List Call) (after : Engine),
      (∀ rule, .add rule ∈ calls → ∃ datum, Rule.ofPlain datum = .ok rule) →
      (new .standard).afterCalls calls = .ok after → after.analyze?.isSome = true := by
  intro allAnalyzed
  obtain ⟨after, called, rules⟩ := exists_afterCalls_setting unnamed
  have handedIn : ∀ rule, .add rule ∈ [Call.add (setting unnamed)] →
      ∃ datum, Rule.ofPlain datum = .ok rule := by
    intro rule isAdded
    cases List.mem_singleton.1 isAdded
    exact ⟨_, ofPlain_setting_unnamed⟩
  have analyzed := allAnalyzed _ after handedIn called
  rw [analyze?_of_unnamed rules] at analyzed
  cases analyzed

end Engine

end Rulebook
