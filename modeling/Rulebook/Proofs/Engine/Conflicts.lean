import Rulebook.Proofs.Engine.Firing
import Rulebook.Proofs.Engine.Order
import Rulebook.Proofs.Engine.Writes
import Rulebook.Proofs.RuleBase.Entries

/-!
# Conflicts

Conflicts. What two rules of one salience both write in a run is a fact that both of them assign, and
the analysis finds these by looking at the rules alone. It names each pair of rules once, in the
order of their turns.
-/

namespace Rulebook

/-! ## Footprints of rules that assign to paths -/

namespace Footprint

/-- The footprint of a rule that assigns to paths only. -/
def ofPaths (rule : Rule) : Footprint :=
  ⟨rule.name, rule.salience, rule.condition.references.mergeSort, rule.assigned.eraseDups.mergeSort⟩

/-- Where a rule assigns to paths alone, its footprint is made of what it reads and assigns. -/
theorem ofRule?_of_paths {rule : Rule}
    (paths : ∀ target value, .assign target value ∈ rule.actions → target.isPath = true) :
    ofRule? rule = some (ofPaths rule) := by
  have assigned : Expr.assignedFacts? rule.actions = some rule.assigned.eraseDups :=
    Expr.assignedFacts?_eq_some_iff.2 ⟨_, Expr.filterMapM_assignedRoot? paths, rfl⟩
  rw [ofRule?, assigned]
  rfl

theorem mapM_ofRule?_of_paths {rules : List Rule}
    (paths : ∀ rule ∈ rules, ∀ target value, .assign target value ∈ rule.actions →
      target.isPath = true) : rules.mapM ofRule? = some (rules.map ofPaths) := by
  induction rules with
  | nil => rfl
  | cons rule rules inductionHypothesis =>
      have later := inductionHypothesis fun other member =>
        paths other (List.mem_cons_of_mem rule member)
      rw [List.mapM_cons, ofRule?_of_paths (paths rule List.mem_cons_self), later]
      rfl

variable {first second : Rule} {fact : String}

theorem mem_contested_ofPaths :
    fact ∈ (ofPaths first).contested (ofPaths second) ↔
      fact ∈ first.assigned ∧ fact ∈ second.assigned := by
  simp only [contested, ofPaths, List.mem_filter, List.contains_iff_mem, List.mem_mergeSort,
    List.mem_eraseDups]

theorem nodup_contested_ofPaths (first second : Rule) :
    ((ofPaths first).contested (ofPaths second)).Nodup := by
  apply List.Nodup.filter
  exact (List.mergeSort_perm _ _).nodup_iff.2 (nodup_eraseDups first.assigned)

end Footprint

/-! ## Conflicts between rules -/

namespace Conflict

open Footprint (ofPaths mem_contested_ofPaths nodup_contested_ofPaths)

/-- Whether a conflict is that of two rules, which have one salience and both assign its fact. -/
structure IsOf (conflict : Conflict) (first second : Rule) : Prop where
  firstName : conflict.first = first.name
  secondName : conflict.second = second.name
  salience : first.salience = second.salience
  firstAssigns : conflict.fact ∈ first.assigned
  secondAssigns : conflict.fact ∈ second.assigned

variable {conflict : Conflict} {first second : Rule} {rules : List Rule}

/-- The conflicts of a rule with those behind it in turn order. -/
theorem mem_among_iff :
    conflict ∈ among (ofPaths first) (rules.map ofPaths) ↔
      ∃ second ∈ rules, conflict.IsOf first second := by
  rw [among, List.flatMap_map, List.mem_flatMap]
  constructor
  · intro found
    obtain ⟨second, member, inPart⟩ := found
    split at inPart
    · next salience =>
        obtain ⟨fact, contested, same⟩ := List.mem_map.1 inPart
        subst same
        obtain ⟨firstAssigns, secondAssigns⟩ := mem_contested_ofPaths.1 contested
        exact ⟨second, member, rfl, rfl, salience, firstAssigns, secondAssigns⟩
    · cases inPart
  · intro found
    obtain ⟨second, member, isOf⟩ := found
    refine ⟨second, member, ?_⟩
    have salience : (ofPaths first).salience = (ofPaths second).salience := isOf.salience
    rw [if_pos salience]
    refine List.mem_map.2
      ⟨conflict.fact, mem_contested_ofPaths.2 ⟨isOf.firstAssigns, isOf.secondAssigns⟩, ?_⟩
    obtain ⟨firstName, secondName, fact⟩ := conflict
    obtain ⟨sameFirst, sameSecond, _, _, _⟩ := isOf
    cases sameFirst
    cases sameSecond
    rfl

/-- The conflicts of a list of rules are those of each rule with one behind it. -/
theorem mem_all_iff :
    conflict ∈ all (rules.map ofPaths) ↔
      ∃ first second, [first, second].Sublist rules ∧ conflict.IsOf first second := by
  induction rules with
  | nil => simp [all]
  | cons rule rules inductionHypothesis =>
      rw [List.map_cons, all, List.mem_append, mem_among_iff, inductionHypothesis]
      constructor
      · intro found
        rcases found with ⟨second, member, isOf⟩ | ⟨first, second, inOrder, isOf⟩
        · exact ⟨rule, second, (List.singleton_sublist.2 member).cons_cons rule, isOf⟩
        · exact ⟨first, second, inOrder.cons rule, isOf⟩
      · intro found
        obtain ⟨first, second, inOrder, isOf⟩ := found
        rcases List.sublist_cons_iff.1 inOrder with later | ⟨behind, same, isBehind⟩
        · exact .inr ⟨first, second, later, isOf⟩
        · cases same
          exact .inl ⟨second, List.singleton_sublist.1 isBehind, isOf⟩

private theorem nodup_among (first : Rule) (distinct : (ruleNames rules).Nodup) :
    (among (ofPaths first) (rules.map ofPaths)).Nodup := by
  rw [among, List.flatMap_map, List.nodup_flatMap]
  constructor
  · intro second _
    split
    · apply List.Nodup.map _ (nodup_contested_ofPaths first second)
      intro fact other same
      exact congrArg Conflict.fact same
    · exact List.nodup_nil
  · have distinctNames := List.pairwise_map.1 distinct
    apply distinctNames.imp
    intro second third different conflict inSecond inThird
    -- each part names its own rule in the second place
    have named (other : Rule) (inPart : conflict ∈
        if (ofPaths first).salience = (ofPaths other).salience then
          ((ofPaths first).contested (ofPaths other)).map fun fact =>
            (⟨(ofPaths first).rule, (ofPaths other).rule, fact⟩ : Conflict)
        else []) : conflict.second = other.name := by
      split at inPart
      · obtain ⟨fact, _, same⟩ := List.mem_map.1 inPart
        exact same ▸ rfl
      · cases inPart
    exact different ((named second inSecond).symm.trans (named third inThird))

private theorem nodup_all (distinct : (ruleNames rules).Nodup) : (all (rules.map ofPaths)).Nodup := by
  induction rules with
  | nil => exact List.nodup_nil
  | cons rule rules inductionHypothesis =>
      obtain ⟨absent, distinctLater⟩ := List.nodup_cons.1 distinct
      rw [List.map_cons, all]
      refine List.nodup_append'.2
        ⟨nodup_among rule distinctLater, inductionHypothesis distinctLater, ?_⟩
      intro conflict isFirst isLater
      obtain ⟨_, _, isOf⟩ := mem_among_iff.1 isFirst
      obtain ⟨first, second, inOrder, isOfLater⟩ := mem_all_iff.1 isLater
      have registered : first ∈ rules := inOrder.subset List.mem_cons_self
      have sameName : first.name = rule.name := isOfLater.firstName.symm.trans isOf.firstName
      exact absent (sameName ▸ List.mem_map_of_mem registered)

/-- Of two rules of distinct names, a conflict names the first one first. -/
theorem not_mem_all_swapped (distinct : (ruleNames rules).Nodup)
    (inOrder : [first, second].Sublist rules) (fact : String) :
    ⟨second.name, first.name, fact⟩ ∉ all (rules.map ofPaths) := by
  intro found
  obtain ⟨other, another, swapped, isOf⟩ := mem_all_iff.1 found
  have isSecond : second = other :=
    List.inj_on_of_nodup_map distinct (inOrder.subset (by simp)) (swapped.subset (by simp))
      isOf.firstName
  have isFirst : first = another :=
    List.inj_on_of_nodup_map distinct (inOrder.subset (by simp)) (swapped.subset (by simp))
      isOf.secondName
  rw [← isSecond, ← isFirst] at swapped
  exact not_pair_sublist_swap (List.Nodup.of_map Rule.name distinct) inOrder swapped

end Conflict

/-! ## What is written in a run -/

/-- The facts that were written at a turn, in order. Those before an action that failed are among
them. -/
def Turn.written (turn : Turn) : List String :=
  if turn.attempted then (Run.performAll turn.store turn.rule.actions).written else []

theorem Turn.mem_assigned_of_mem_written {turn : Turn} {fact : String}
    (member : fact ∈ turn.written) : fact ∈ turn.rule.assigned := by
  rw [Turn.written] at member
  split at member
  · exact Rule.mem_assigned_iff.2 (Run.exists_assign_of_mem_written member)
  · cases member

namespace Run

variable {refraction : Bool} {pass : Nat} {rule : Rule} {rules : List Rule} {run last : Run}

private theorem takeTurn_modified :
    (takeTurn refraction pass rule run).1.modified =
      (turn refraction pass rule run).written.foldl noteWrite run.modified := by
  cases attempted : (turn refraction pass rule run).attempted with
  | true =>
      obtain ⟨holds, notSuppressed⟩ := attempted_turn_iff.1 attempted
      rw [takeTurn_of_holds holds notSuppressed, attempt_modified, Turn.written, if_pos attempted]
      rfl
  | false =>
      rw [Turn.written, attempted]
      have possible := takeTurn_cases refraction pass rule run
      simp only [turn] at attempted
      generalize takeTurn refraction pass rule run = result at *
      cases possible with
      | attempted holds notSuppressed =>
          rw [hasAttempted_attempt] at attempted
          cases attempted
      | _ => rfl

/-- What is reported as modified in the end is what was reported before, and what was written at the
turns. -/
theorem Turns.mem_modified_iff {turns : List Turn} {fact : String}
    (taken : Turns refraction rules run turns last) :
    fact ∈ last.modified ↔ fact ∈ run.modified ∨ ∃ turn ∈ turns, fact ∈ turn.written := by
  induction taken with
  | nil run => simp
  | cons pass member _ inductionHypothesis =>
      rw [inductionHypothesis, takeTurn_modified, mem_foldl_noteWrite, List.exists_mem_cons_iff,
        or_assoc]

end Run

namespace Engine

/-- Whether a rule wrote a fact at one of its turns in the run on a store. -/
def Wrote (engine : Engine) (identity : String) (store : Store) (rule : Rule) (fact : String) :
    Prop :=
  ∃ turn ∈ engine.turnsOn identity store, turn.rule = rule ∧ fact ∈ turn.written

variable {engine : Engine} {identity : String} {store : Store} {rule other : Rule} {fact : String}

theorem Wrote.mem_bySalience (wrote : engine.Wrote identity store rule fact) :
    rule ∈ engine.base.bySalience := by
  obtain ⟨turn, isTurn, isRule, _⟩ := wrote
  rw [← isRule]
  exact (engine.turns_runOn identity store).mem_rules turn isTurn

theorem Wrote.mem_assigned (wrote : engine.Wrote identity store rule fact) :
    fact ∈ rule.assigned := by
  obtain ⟨turn, _, isRule, isWritten⟩ := wrote
  rw [← isRule]
  exact turn.mem_assigned_of_mem_written isWritten

/-- A fact is reported as modified exactly if a rule wrote it in the run. -/
theorem mem_modified_iff_wrote :
    fact ∈ (engine.runOn identity store).run.modified ↔
      ∃ rule, engine.Wrote identity store rule fact := by
  rw [(engine.turns_runOn identity store).mem_modified_iff]
  constructor
  · intro either
    obtain ⟨turn, isTurn, isWritten⟩ := either.resolve_left List.not_mem_nil
    exact ⟨turn.rule, turn, isTurn, rfl, isWritten⟩
  · intro wrote
    obtain ⟨_, turn, isTurn, _, isWritten⟩ := wrote
    exact .inr ⟨turn, isTurn, isWritten⟩

/-! ## Conflicts that an engine finds -/

/-- The analysis succeeds where all rules assign to paths, and shows all conflicts. -/
theorem analyze?_of_paths
    (paths : ∀ rule ∈ engine.base.rules, ∀ target value, .assign target value ∈ rule.actions →
      target.isPath = true) :
    ∃ analysis, engine.analyze? = some analysis ∧
      analysis.conflicts = Conflict.all (engine.base.bySalience.map Footprint.ofPaths) := by
  have found := Footprint.mapM_ofRule?_of_paths fun rule member =>
    paths rule (engine.base.perm_bySalience.mem_iff.1 member)
  rw [analyze?, Analysis.ofRules?, found]
  exact ⟨_, rfl, rfl⟩

/-- Where rules assign to paths only, the analysis misses no conflict of a run. A fact that two rules
of one salience both wrote is reported of them once, the one whose turn is first in front; what is
reported is assigned by two rules of one salience. -/
theorem analyze?_conflicts (engine : Engine)
    (paths : ∀ rule ∈ engine.base.rules, ∀ target value, .assign target value ∈ rule.actions →
      target.isPath = true) :
    ∃ analysis, engine.analyze? = some analysis ∧
      (∀ identity store after storeAfter report,
        engine.execute identity store = .ok (after, storeAfter, report) →
          (∀ fact, fact ∈ report.modified ↔ ∃ rule, engine.Wrote identity store rule fact) ∧
          ∀ rule other fact, rule ≠ other → rule.salience = other.salience →
            engine.Wrote identity store rule fact → engine.Wrote identity store other fact →
            ∃ first second, (first = rule ∧ second = other ∨ first = other ∧ second = rule) ∧
              [first, second].Sublist engine.base.bySalience ∧
              analysis.conflicts.count ⟨first.name, second.name, fact⟩ = 1 ∧
              ⟨second.name, first.name, fact⟩ ∉ analysis.conflicts) ∧
      ∀ conflict ∈ analysis.conflicts, ∃ first ∈ engine.base.rules, ∃ second ∈ engine.base.rules,
        conflict.first = first.name ∧ conflict.second = second.name ∧ first ≠ second ∧
          first.salience = second.salience ∧
          (∃ target value, .assign target value ∈ first.actions ∧
            target.root? = some conflict.fact) ∧
          ∃ target value, .assign target value ∈ second.actions ∧
            target.root? = some conflict.fact := by
  obtain ⟨analysis, analysed, found⟩ := analyze?_of_paths paths
  have distinct := engine.base.nodup_bySalience
  refine ⟨analysis, analysed, ?_, ?_⟩
  · intro identity store after storeAfter report executed
    obtain ⟨_, _, _, isReport⟩ := execute_eq_ok_iff.1 executed
    subst isReport
    refine ⟨fun fact => mem_modified_iff_wrote, ?_⟩
    intro rule other fact different salience wrote otherWrote
    have reported (first second : Rule) (inOrder : [first, second].Sublist engine.base.bySalience)
        (sameSalience : first.salience = second.salience) (firstAssigns : fact ∈ first.assigned)
        (secondAssigns : fact ∈ second.assigned) :
        analysis.conflicts.count ⟨first.name, second.name, fact⟩ = 1 ∧
          ⟨second.name, first.name, fact⟩ ∉ analysis.conflicts := by
      rw [found]
      let conflict : Conflict := ⟨first.name, second.name, fact⟩
      have isOf : conflict.IsOf first second :=
        ⟨rfl, rfl, sameSalience, firstAssigns, secondAssigns⟩
      have isConflict := Conflict.mem_all_iff.2 ⟨first, second, inOrder, isOf⟩
      exact ⟨List.count_eq_one_of_mem (Conflict.nodup_all distinct) isConflict,
        Conflict.not_mem_all_swapped distinct inOrder fact⟩
    rcases pair_sublist_of_mem wrote.mem_bySalience otherWrote.mem_bySalience different with
      inOrder | inOrder
    · exact ⟨rule, other, .inl ⟨rfl, rfl⟩, inOrder,
        reported rule other inOrder salience wrote.mem_assigned otherWrote.mem_assigned⟩
    · exact ⟨other, rule, .inr ⟨rfl, rfl⟩, inOrder,
        reported other rule inOrder salience.symm otherWrote.mem_assigned wrote.mem_assigned⟩
  · intro conflict isReported
    rw [found] at isReported
    obtain ⟨first, second, inOrder, isOf⟩ := Conflict.mem_all_iff.1 isReported
    have registered (rule : Rule) (member : rule ∈ [first, second]) : rule ∈ engine.base.rules :=
      engine.base.perm_bySalience.mem_iff.1 (inOrder.subset member)
    have different : first ≠ second := by
      have distinctPair := (List.Nodup.of_map Rule.name distinct).sublist inOrder
      simpa using distinctPair
    exact ⟨first, registered first (by simp), second, registered second (by simp), isOf.firstName,
      isOf.secondName, different, isOf.salience, Rule.mem_assigned_iff.1 isOf.firstAssigns,
      Rule.mem_assigned_iff.1 isOf.secondAssigns⟩

private def counting : Rule :=
  .undescribed "Count" 0 (.bool true)
    [.assign (.field (.fact "order") "count") (.number 1), .fact "missing"]

private def totalling : Rule :=
  .undescribed "Total" 0 (.bool true) [.assign (.field (.fact "order") "total") (.number 2)]

private def clashing : Engine :=
  { new .standard with base := ⟨.reject, [counting, totalling], by decide⟩ }

theorem bySalience_clashing : clashing.base.bySalience = [counting, totalling] := by
  refine List.mergeSort_of_pairwise ?_
  simp [clashing, counting, totalling, Rule.undescribed]

private theorem wrote_clashing :
    clashing.Wrote "facts" ordered counting "order" ∧
      clashing.Wrote "facts" ordered totalling "order" := by
  let begun := Run.start ordered (clashing.historyOf "facts")
  let behind := (Run.takeTurn true 1 counting begun).1
  have inFirstPass : ∀ turn ∈ [Run.turn true 1 counting begun, Run.turn true 1 totalling behind],
      turn ∈ clashing.turnsOn "facts" ordered := by
    intro turn member
    rw [turnsOn, bySalience_clashing]
    show turn ∈ Run.runTurns true [counting, totalling] (99 + 1) 0 begun
    rw [Run.runTurns]
    exact List.mem_append_left _ member
  have countWrote : "order" ∈ (Run.turn true 1 counting begun).written := by decide +kernel
  have totalWrote : "order" ∈ (Run.turn true 1 totalling behind).written := by decide +kernel
  exact ⟨⟨_, inFirstPass _ List.mem_cons_self, rfl, countWrote⟩,
    ⟨_, inFirstPass _ (List.mem_cons_of_mem _ List.mem_cons_self), rfl, totalWrote⟩⟩

theorem analyze?_conflicts_clashing :
    (∀ rule ∈ clashing.base.rules, ∀ target value, .assign target value ∈ rule.actions →
      target.isPath = true) ∧
      ∃ analysis after storeAfter report, clashing.analyze? = some analysis ∧
        clashing.execute "facts" ordered = .ok (after, storeAfter, report) ∧
        report.fired = ["Total"] ∧ "order" ∈ report.modified ∧
        analysis.conflicts.count ⟨"Count", "Total", "order"⟩ = 1 ∧
        ⟨"Total", "Count", "order"⟩ ∉ analysis.conflicts := by
  have paths : ∀ rule ∈ clashing.base.rules, ∀ target value,
      .assign target value ∈ rule.actions → target.isPath = true := by
    simp [clashing, counting, totalling, Rule.undescribed, Expr.isPath, Expr.root?]
  have executed : clashing.execute "facts" ordered = .ok (_, _, _) := execute_of_idle rfl
  obtain ⟨analysis, analysed, reported, _⟩ := analyze?_conflicts clashing paths
  obtain ⟨modified, conflicting⟩ := reported _ _ _ _ _ executed
  obtain ⟨countWrote, totalWrote⟩ := wrote_clashing
  have different : counting ≠ totalling := fun same =>
    absurd (congrArg Rule.name same) (by decide)
  have distinct : [counting, totalling].Nodup := by simp [different]
  obtain ⟨first, second, isPair, inOrder, once, notSwapped⟩ :=
    conflicting counting totalling "order" different rfl countWrote totalWrote
  have fired : (clashing.runOn "facts" ordered).run.fired = ["Total"] := by
    rw [runOn, bySalience_clashing]
    decide +kernel
  refine ⟨paths, analysis, _, _, _, analysed, executed, fired, (modified "order").2 ⟨_, countWrote⟩,
    ?_⟩
  rcases isPair with ⟨isCounting, isTotalling⟩ | ⟨isTotalling, isCounting⟩
  · rw [isCounting, isTotalling] at once notSwapped
    exact ⟨once, notSwapped⟩
  · rw [isCounting, isTotalling, bySalience_clashing] at inOrder
    exact absurd inOrder (not_pair_sublist_swap distinct (List.Sublist.refl _))

end Engine

end Rulebook
