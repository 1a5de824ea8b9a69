import Mathlib.Data.List.Nodup
import Mathlib.Logic.Relation
import Rulebook.Proofs.Engine.Settled

/-!
# Acyclic rules

Rules that do not feed each other in circles. A rule feeds another when it assigns a fact that the
condition of the other mentions. The depth of a rule is the number of rules that feed it, directly
or through others; where no rule feeds itself, all rules of a depth are settled one pass after those
of smaller depths, and a run ends after one pass more than there are rules.
-/

namespace Rulebook

open Relation (TransGen)

/-! ## Depth -/

/-- Whether a rule assigns a fact that the condition of another mentions. -/
def Rule.Feeds (rule other : Rule) : Prop :=
  ∃ roots, Expr.assignedFacts? rule.actions = some roots ∧
    ∃ name ∈ roots, name ∈ other.condition.references

def FeedsAmong (rules : List Rule) (rule other : Rule) : Prop :=
  rule ∈ rules ∧ other ∈ rules ∧ rule.Feeds other

/-- Whether no rule feeds itself, directly or through others. -/
def IsAcyclic (rules : List Rule) : Prop :=
  ∀ rule, ¬ TransGen (FeedsAmong rules) rule rule

open Classical in
/-- The rules that feed a rule, directly or through others. -/
noncomputable def feeders (rules : List Rule) (rule : Rule) : List Rule :=
  rules.filter fun other => decide (TransGen (FeedsAmong rules) other rule)

noncomputable def depth (rules : List Rule) (rule : Rule) : Nat :=
  (feeders rules rule).length

variable {rules : List Rule} {rule other : Rule}

/-- The feeders of a rule are those from which a path of feeding leads to it. -/
theorem mem_feeders_iff :
    other ∈ feeders rules rule ↔ other ∈ rules ∧ TransGen (FeedsAmong rules) other rule := by
  simp [feeders, List.mem_filter]

theorem length_lt_of_sublist {shorter longer : List Rule} (sublist : shorter.Sublist longer)
    (member : rule ∈ longer) (absent : rule ∉ shorter) : shorter.length < longer.length := by
  refine Nat.lt_of_le_of_ne sublist.length_le ?_
  intro sameLength
  have same : shorter = longer := sublist.eq_of_length sameLength
  rw [same] at absent
  exact absent member

private theorem depth_lt_length (acyclic : IsAcyclic rules) (member : rule ∈ rules) :
    depth rules rule < rules.length := by
  have sublist : (feeders rules rule).Sublist rules := List.filter_sublist
  apply length_lt_of_sublist sublist member
  intro isFeeder
  exact acyclic rule (mem_feeders_iff.1 isFeeder).2

private theorem depth_lt_depth (acyclic : IsAcyclic rules) (feeds : FeedsAmong rules rule other) :
    depth rules rule < depth rules other := by
  have sublist : (feeders rules rule).Sublist (feeders rules other) := by
    apply List.monotone_filter_right rules
    intro third isFeeder
    simp only [decide_eq_true_eq] at isFeeder ⊢
    exact isFeeder.tail feeds
  have member : rule ∈ feeders rules other := mem_feeders_iff.2 ⟨feeds.1, .single feeds⟩
  apply length_lt_of_sublist sublist member
  intro isFeeder
  exact acyclic rule (mem_feeders_iff.1 isFeeder).2

/-! ## Settled rules -/

/-- A rule that does not feed another assigns nothing that the condition of the other reads. -/
theorem not_mem_assigned_of_not_feeds {roots : List String}
    (assigned : Expr.assignedFacts? rule.actions = some roots) (notFeeding : ¬ rule.Feeds other) :
    ∀ name ∈ other.condition.references, name ∉ rule.assigned := by
  intro name mentioned isAssigned
  obtain ⟨target, value, member, isRoot⟩ := Rule.mem_assigned_iff.1 isAssigned
  have inRoots : name ∈ roots := Expr.mem_assignedFacts? assigned member isRoot
  exact notFeeding ⟨roots, assigned, name, inRoots, mentioned⟩

namespace Run

variable {pass : Nat} {run : Run}

/-- A settled rule stays settled at the turn of another that is settled as well, or does not feed
it. -/
theorem Settled.afterTurn {roots : List String}
    (assigned : Expr.assignedFacts? rule.actions = some roots) (different : other.name ≠ rule.name)
    (harmless : Settled run.store run.history rule ∨ ¬ rule.Feeds other)
    (settled : Settled run.store run.history other) :
    Settled (takeTurn true pass rule run).1.store (takeTurn true pass rule run).1.history other := by
  rcases harmless with settledToo | notFeeding
  · obtain ⟨sameStore, sameHistory⟩ := takeTurn_of_settled pass settledToo
    rw [sameStore, sameHistory]
    exact settled
  · have notAssigned := not_mem_assigned_of_not_feeds assigned notFeeding
    exact settled.congr (agreeOn_of_not_assigned notAssigned) (takeTurn_history_of_ne different).symm

/-! ## Passes and runs -/

def SettledBelow (rules : List Rule) (bound : Nat) (store : Store) (history : History) : Prop :=
  ∀ rule ∈ rules, depth rules rule < bound → Settled store history rule

/-- What is asked of rules: distinct names, targets that are paths, and no circles. -/
structure Layered (rules : List Rule) : Prop where
  distinct : (ruleNames rules).Nodup
  assigned : ∀ rule ∈ rules, ∃ roots, Expr.assignedFacts? rule.actions = some roots
  acyclic : IsAcyclic rules

variable {bound : Nat}

/-- No rule among layered ones feeds itself. -/
theorem Layered.not_feeds_self (layered : Layered rules) (member : rule ∈ rules) :
    ¬ rule.Feeds rule :=
  fun feeds => layered.acyclic rule (.single ⟨member, member, feeds⟩)

/-- In a pass the rules of a depth are settled one after another, where those of smaller depths are
settled before. -/
theorem settledBelow_takePass (layered : Layered rules) {remaining : List Rule}
    (members : ∀ rule ∈ remaining, rule ∈ rules) (wellFormed : run.store.WellFormed)
    (noNaN : ∀ turn ∈ passTurns true pass remaining run, turn.HasNoNaN)
    (below : SettledBelow rules bound run.store run.history)
    (done : ∀ rule ∈ rules, rule ∉ remaining → depth rules rule = bound →
      Settled run.store run.history rule) :
    (takePass true pass remaining run).1.store.WellFormed ∧
      SettledBelow rules (bound + 1) (takePass true pass remaining run).1.store
        (takePass true pass remaining run).1.history := by
  induction remaining generalizing run with
  | nil =>
      refine ⟨wellFormed, fun rule member atMost => ?_⟩
      rcases Nat.lt_succ_iff_lt_or_eq.1 atMost with less | same
      · exact below rule member less
      · exact done rule member List.not_mem_nil same
  | cons first others inductionHypothesis =>
      have firstMember := members first List.mem_cons_self
      obtain ⟨roots, assigned⟩ := layered.assigned first firstMember
      have ownTurn : Settled (takeTurn true pass first run).1.store
          (takeTurn true pass first run).1.history first :=
        settled_after_turn
          (not_mem_assigned_of_not_feeds assigned (layered.not_feeds_self firstMember))
          ((noNaN _ List.mem_cons_self).isSelfSame wellFormed)
      -- A first rule that feeds one of this depth is less deep itself, so its turn does nothing.
      have kept (rule : Rule) (member : rule ∈ rules) (atMost : depth rules rule ≤ bound)
          (settled : Settled run.store run.history rule) :
          Settled (takeTurn true pass first run).1.store
            (takeTurn true pass first run).1.history rule := by
        by_cases same : rule.name = first.name
        · obtain rfl : rule = first :=
            List.inj_on_of_nodup_map layered.distinct member firstMember same
          exact ownTurn
        · refine settled.afterTurn assigned same ?_
          by_cases feeds : first.Feeds rule
          · have less := depth_lt_depth layered.acyclic ⟨firstMember, member, feeds⟩
            exact .inl (below first firstMember (Nat.lt_of_lt_of_le less atMost))
          · exact .inr feeds
      rw [takePass_cons]
      refine inductionHypothesis (fun rule member => members rule (List.mem_cons_of_mem _ member))
        (takeTurn_wellFormed wellFormed)
        (fun turn member => noNaN turn (List.mem_cons_of_mem _ member)) ?_ ?_
      · exact fun rule member less => kept rule member (Nat.le_of_lt less) (below rule member less)
      · intro rule member notLater atBound
        by_cases same : rule = first
        · exact same ▸ ownTurn
        · have notRemaining : rule ∉ first :: others := by
            intro remains
            rcases List.mem_cons.1 remains with isFirst | later
            · exact same isFirst
            · exact notLater later
          exact kept rule member (Nat.le_of_eq atBound) (done rule member notRemaining atBound)

/-- A run of layered rules takes at most one pass for each depth that is not settled before, and
one more. -/
theorem takePasses_of_layered (layered : Layered rules) {allowed made : Nat}
    (wellFormed : run.store.WellFormed)
    (noNaN : ∀ turn ∈ runTurns true rules allowed made run, turn.HasNoNaN)
    (below : SettledBelow rules bound run.store run.history) :
    (takePasses true rules allowed made run).passes ≤ made + (rules.length - bound) + 1 ∧
      (rules.length - bound + 1 ≤ allowed →
        (takePasses true rules allowed made run).boundReached = false) := by
  induction allowed generalizing made run bound with
  | zero =>
      refine ⟨?_, fun enough => absurd enough (by omega)⟩
      show made ≤ made + (rules.length - bound) + 1
      omega
  | succ allowed inductionHypothesis =>
      have noNaNPass : ∀ turn ∈ passTurns true (made + 1) rules run, turn.HasNoNaN :=
        fun turn member => noNaN turn (List.mem_append_left _ member)
      obtain ⟨wellFormedAfter, belowAfter⟩ := settledBelow_takePass layered
        (fun _ member => member) wellFormed noNaNPass below
        (fun rule member absent => absurd member absent)
      cases changed : (takePass true (made + 1) rules run).2 with
      | false =>
          rw [takePasses_of_unchanged changed]
          exact ⟨by simp, fun _ => rfl⟩
      | true =>
          have notAllSettled : bound < rules.length := by
            by_contra noDepth
            have rest : ∀ rule ∈ rules, Rests true run.store run.history rule := by
              intro rule member
              have shallow := depth_lt_length layered.acyclic member
              exact (below rule member (by omega)).rests
            have unchanged : (takePass true (made + 1) rules run).2 = false :=
              takePass_of_rests layered.distinct rest
            rw [unchanged] at changed
            cases changed
          have noNaNLater : ∀ turn ∈ runTurns true rules allowed (made + 1)
              (takePass true (made + 1) rules run).1, turn.HasNoNaN := by
            intro turn member
            refine noNaN turn (List.mem_append_right _ ?_)
            rw [if_pos changed]
            exact member
          obtain ⟨fewPasses, atRest⟩ :=
            inductionHypothesis wellFormedAfter noNaNLater belowAfter
          rw [takePasses_of_changed changed]
          exact ⟨by omega, fun enough => atRest (by omega)⟩

end Run

namespace Engine

/-- Rules that no circle of assignments and conditions joins come to rest: a run of them ends after
one pass more than there are rules, where so many are allowed. -/
theorem execute_of_acyclic (engine : Engine) (identity : String) (store : Store)
    (idle : engine.phase.isRunning = false) (refraction : engine.settings.refraction = true)
    (paths : ∀ rule ∈ engine.base.rules, ∀ target value, .assign target value ∈ rule.actions →
      target.isPath = true)
    (acyclic : IsAcyclic engine.base.rules) (wellFormed : store.WellFormed)
    (noNaN : ∀ turn ∈ engine.turnsOn identity store, turn.HasNoNaN) :
    ∃ after storeAfter report,
      engine.execute identity store = .ok (after, storeAfter, report) ∧
        report.passes ≤ engine.base.rules.length + 1 ∧
        (engine.base.rules.length + 1 ≤ engine.settings.maxPasses →
          report.boundReached = false) := by
  have inOrder := engine.base.perm_bySalience
  have sameFeeds : FeedsAmong engine.base.bySalience = FeedsAmong engine.base.rules := by
    funext rule other
    simp only [FeedsAmong, inOrder.mem_iff]
  have layered : Run.Layered engine.base.bySalience := by
    refine ⟨engine.base.nodup_bySalience, fun rule member => ?_, ?_⟩
    · exact Expr.exists_assignedFacts? (paths rule (inOrder.mem_iff.1 member))
    · rw [IsAcyclic, sameFeeds]
      exact acyclic
  have nothingBelow : Run.SettledBelow engine.base.bySalience 0 store
      (engine.historyOf identity) := fun rule _ less => absurd less (Nat.not_lt_zero _)
  rw [turnsOn, refraction] at noNaN
  obtain ⟨fewPasses, atRest⟩ := Run.takePasses_of_layered layered wellFormed noNaN nothingBelow
  rw [inOrder.length_eq, Nat.sub_zero] at fewPasses atRest
  refine ⟨_, _, _, execute_of_idle idle, ?_, ?_⟩
  · show (engine.runOn identity store).passes ≤ engine.base.rules.length + 1
    rw [runOn, refraction]
    omega
  · intro enough
    show (engine.runOn identity store).boundReached = false
    rw [runOn, refraction]
    exact atRest enough

def takingOver (name source target : String) : Rule :=
  .undescribed name 0 (.fact source) [.assign (.fact target) (.fact source)]

/-- Two such rules, of which the second feeds the first: `x` reaches `z` in two passes. -/
private def handingOn : Engine :=
  { Engine.new .standard with
    base := ⟨.reject, [takingOver "late" "y" "z", takingOver "early" "x" "y"],
      by simp [ruleNames, takingOver, Rule.undescribed]⟩ }

def handed : Store :=
  (∅ : Store).set "x" (.bool true)

theorem takingOver_feeds_iff {name other source target read written : String} :
    (takingOver name source target).Feeds (takingOver other read written) ↔ target = read := by
  have mentioned : (Expr.fact read).references = [read] := by
    simp [Expr.references, Expr.walk, Expr.walkAll, Expr.children, Expr.factName?,
      List.eraseDups_cons]
  simp [takingOver, Rule.undescribed, Rule.Feeds, Expr.assignedFacts?, Expr.root?, mentioned,
    eq_comm]

private theorem isAcyclic_handingOn : IsAcyclic handingOn.base.rules := by
  have only (rule other : Rule) (feeds : FeedsAmong handingOn.base.rules rule other) :
      rule = takingOver "early" "x" "y" ∧ other = takingOver "late" "y" "z" := by
    obtain ⟨member, otherMember, feeds⟩ := feeds
    simp only [handingOn, List.mem_cons, List.not_mem_nil, or_false] at member otherMember
    rcases member with rfl | rfl <;> rcases otherMember with rfl | rfl <;>
      simp_all [takingOver_feeds_iff]
  intro rule circle
  obtain ⟨next, feeds, _⟩ := Relation.TransGen.head'_iff.1 circle
  obtain ⟨last, _, fed⟩ := Relation.TransGen.tail'_iff.1 circle
  have same := (only _ _ feeds).1.symm.trans (only _ _ fed).2
  exact absurd (congrArg Rule.name same) (by simp [takingOver, Rule.undescribed])

def isAbsentOrBool : Option Value → Bool
  | none | some (.bool _) => true
  | some _ => false

theorem execute_of_acyclic_handingOn :
    ∃ after storeAfter report,
      handingOn.execute "facts" handed = .ok (after, storeAfter, report) ∧
        report.passes ≤ 3 ∧ (3 ≤ handingOn.settings.maxPasses → report.boundReached = false) := by
  have order : handingOn.base.bySalience = handingOn.base.rules := by
    refine List.mergeSort_of_pairwise ?_
    simp [handingOn, takingOver, Rule.undescribed]
  have paths : ∀ rule ∈ handingOn.base.rules, ∀ target value,
      .assign target value ∈ rule.actions → target.isPath = true := by
    simp [handingOn, takingOver, Rule.undescribed, Expr.isPath, Expr.root?]
  have empty : (∅ : Store).WellFormed := by
    intro name value isFact
    cases isFact
  have wellFormed : handed.WellFormed := Store.WellFormed.set empty (.bool true)
  have onlyBool : (handingOn.turnsOn "facts" handed).all fun turn =>
      turn.rule.condition.references.all fun name => isAbsentOrBool (turn.store.get? name) := by
    rw [turnsOn, order]
    decide +kernel
  have noNaN : ∀ turn ∈ handingOn.turnsOn "facts" handed, turn.HasNoNaN := by
    intro turn member name mentioned value isFact
    have isBool := List.all_eq_true.1 (List.all_eq_true.1 onlyBool turn member) name mentioned
    rw [isFact] at isBool
    cases value with
    | bool holds =>
        intro contains
        cases contains
    | _ => cases isBool
  exact execute_of_acyclic handingOn "facts" handed rfl rfl paths isAcyclic_handingOn wellFormed
    noNaN

end Engine

end Rulebook
