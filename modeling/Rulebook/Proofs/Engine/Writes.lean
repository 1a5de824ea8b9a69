import Mathlib.Data.List.Nodup
import Rulebook.Proofs.Engine.Effect
import Rulebook.Proofs.Engine.Execution

/-!
# Facts that a run writes

What a run writes. The facts that it reports as modified are there afterwards, no other fact has
changed, and each of them is assigned by a rule that has fired or failed at one of its actions.
Facts that were written before an action failed are among them.
-/

namespace Rulebook

/-! ## Stores before and after writes -/

namespace Store

/-- `WritesOnly written before after` means that the written facts are there afterwards, while all
others are as they were before. -/
structure WritesOnly (written : List String) (before after : Store) : Prop where
  present : ∀ name ∈ written, after.contains name = true
  others : ∀ name, name ∉ written → after.get? name = before.get? name

variable {written writtenLater : List String} {first second third : Store} {name : String}

theorem WritesOnly.nothing (store : Store) : WritesOnly [] store store :=
  ⟨fun _ member => absurd member List.not_mem_nil, fun _ _ => rfl⟩

private theorem writesOnly_set (store : Store) (name : String) (value : Value) :
    WritesOnly [name] store (store.set name value) := by
  constructor
  · intro other member
    have same : other = name := List.mem_singleton.1 member
    rw [same, Table.contains, Table.get?_set_self]
    rfl
  · intro other notWritten
    have different : other ≠ name := fun same => notWritten (List.mem_singleton.2 same)
    exact Table.get?_set_of_ne store value different

/-- No fact is removed. -/
theorem WritesOnly.contains (writes : WritesOnly written first second)
    (isThere : first.contains name = true) : second.contains name = true := by
  by_cases isWritten : name ∈ written
  · exact writes.present name isWritten
  · have same : second.get? name = first.get? name := writes.others name isWritten
    rw [Table.contains, same]
    exact isThere

/-- What two steps write one after the other. -/
theorem WritesOnly.trans (writes : WritesOnly written first second)
    (later : WritesOnly writtenLater second third) :
    WritesOnly (written ++ writtenLater) first third := by
  constructor
  · intro name member
    rcases List.mem_append.1 member with isWritten | isWrittenLater
    · exact later.contains (writes.present name isWritten)
    · exact later.present name isWrittenLater
  · intro name notWritten
    have notFirst : name ∉ written := fun member =>
      notWritten (List.mem_append_left writtenLater member)
    have notLater : name ∉ writtenLater := fun member =>
      notWritten (List.mem_append_right written member)
    rw [later.others name notLater, writes.others name notFirst]

theorem WritesOnly.congr (writes : WritesOnly written first second)
    (same : ∀ name, name ∈ written ↔ name ∈ writtenLater) :
    WritesOnly writtenLater first second := by
  constructor
  · intro name member
    exact writes.present name ((same name).2 member)
  · intro name notWritten
    apply writes.others name
    intro member
    exact notWritten ((same name).1 member)

end Store

namespace Run

variable {refraction : Bool} {pass : Nat} {rule : Rule} {rules : List Rule} {run : Run}
  {name : String}

/-! ## Actions -/

private theorem perform_writesOnly {store after : Store} {action : Expr} {written? : Option String}
    (performed : action.perform store = .ok (after, written?)) :
    Store.WritesOnly written?.toList store after := by
  rcases Expr.perform_eq_ok performed with ⟨isNone, isSame⟩ | wrote
  · rw [isNone, isSame]
    exact .nothing store
  · obtain ⟨_, _, root, new, _, _, isRoot, isSet⟩ := wrote
    rw [isRoot, isSet]
    exact Store.writesOnly_set store root new

private theorem performAll_writesOnly (store : Store) (actions : List Expr) :
    Store.WritesOnly (performAll store actions).written store (performAll store actions).store := by
  induction actions generalizing store with
  | nil => exact .nothing store
  | cons action actions inductionHypothesis =>
      cases performed : action.perform store with
      | error fault =>
          rw [performAll_cons_error performed]
          exact .nothing store
      | ok result =>
          obtain ⟨after, written?⟩ := result
          rw [performAll_cons_ok performed]
          exact (perform_writesOnly performed).trans (inductionHypothesis after)

/-- Each fact that is written is the root of a target. -/
theorem exists_assign_of_mem_written {store : Store} {actions : List Expr}
    (member : name ∈ (performAll store actions).written) :
    ∃ target value, .assign target value ∈ actions ∧ target.root? = some name := by
  induction actions generalizing store with
  | nil => cases member
  | cons action actions inductionHypothesis =>
      cases performed : action.perform store with
      | error fault =>
          rw [performAll_cons_error performed] at member
          cases member
      | ok result =>
          obtain ⟨after, written?⟩ := result
          rw [performAll_cons_ok performed] at member
          rcases List.mem_append.1 member with isFirst | isLater
          · rcases Expr.perform_eq_ok performed with ⟨isNone, _⟩ | wrote
            · rw [isNone] at isFirst
              cases isFirst
            · obtain ⟨target, value, root, _, isAssign, isRoot, isWritten, _⟩ := wrote
              rw [isWritten] at isFirst
              have same : name = root := List.mem_singleton.1 isFirst
              rw [isAssign, same]
              exact ⟨target, value, List.mem_cons_self, isRoot⟩
          · obtain ⟨target, value, inLater, isRoot⟩ := inductionHypothesis isLater
            exact ⟨target, value, List.mem_cons_of_mem action inLater, isRoot⟩

/-! ## Turns -/

/-- Whether the actions of a rule were attempted, by what is reported: the rule has fired, or one of
its actions has failed. -/
def WasAttempted (fired : List String) (failures : List Failure) (rule : Rule) : Prop :=
  rule.name ∈ fired ∨ ∃ failure ∈ failures, failure.rule = rule.name ∧ failure.part = .action

theorem WasAttempted.append {fired firedLater : List String} {failures failuresLater : List Failure}
    (either : WasAttempted fired failures rule ∨ WasAttempted firedLater failuresLater rule) :
    WasAttempted (fired ++ firedLater) (failures ++ failuresLater) rule := by
  rcases either with (hasFired | ⟨failure, member, isFailed⟩) | hasFired |
    ⟨failure, member, isFailed⟩
  · exact .inl (List.mem_append_left _ hasFired)
  · exact .inr ⟨failure, List.mem_append_left _ member, isFailed⟩
  · exact .inl (List.mem_append_right _ hasFired)
  · exact .inr ⟨failure, List.mem_append_right _ member, isFailed⟩

theorem effect_eq_attemptEffect {store : Store} {last? : Option Signature}
    (member : name ∈ (effect refraction rule store last?).written) :
    effect refraction rule store last? = attemptEffect refraction rule store := by
  rcases effect_cases refraction rule store last? with attempted | unattempted
  · exact attempted
  · rw [unattempted] at member
    cases member

private theorem effect_writesOnly (refraction : Bool) (rule : Rule) (store : Store)
    (last? : Option Signature) :
    Store.WritesOnly (effect refraction rule store last?).written store
      (effect refraction rule store last?).store := by
  rcases effect_cases refraction rule store last? with attempted | unattempted
  · rw [attempted]
    exact performAll_writesOnly store rule.actions
  · rw [unattempted]
    exact .nothing store

theorem mem_assigned_of_mem_written {store : Store} {last? : Option Signature}
    (member : name ∈ (effect refraction rule store last?).written) : name ∈ rule.assigned := by
  rw [effect_eq_attemptEffect member] at member
  exact Rule.mem_assigned_iff.2 (exists_assign_of_mem_written member)

private theorem wasAttempted_of_mem_written {store : Store} {last? : Option Signature} (pass : Nat)
    (member : name ∈ (effect refraction rule store last?).written) :
    WasAttempted ((effect refraction rule store last?).fired rule)
      ((effect refraction rule store last?).failures pass rule) rule := by
  rw [effect_eq_attemptEffect member]
  cases failed : (performAll store rule.actions).fault? with
  | none =>
      apply Or.inl
      simp [attemptEffect, Effect.fired, failed]
  | some fault =>
      apply Or.inr
      simp [attemptEffect, Effect.failures, failed]

private theorem nodup_foldl_noteWrite {written modified : List String} (distinct : modified.Nodup) :
    (written.foldl noteWrite modified).Nodup := by
  induction written generalizing modified with
  | nil => exact distinct
  | cons first written inductionHypothesis =>
      apply inductionHypothesis
      rw [noteWrite]
      split
      · exact distinct
      · next notKnown =>
          have absent : first ∉ modified := fun known => notKnown (List.contains_iff_mem.2 known)
          rw [← List.concat_eq_append]
          exact distinct.concat absent

/-- What is known of the facts that a run has reported as modified, given those before the run. -/
structure AccountsForWrites (rules : List Rule) (before : Store) (run : Run) : Prop where
  distinct : run.modified.Nodup
  writesOnly : Store.WritesOnly run.modified before run.store
  assigned : ∀ name ∈ run.modified, ∃ rule ∈ rules, name ∈ rule.assigned ∧
    WasAttempted run.fired run.failures rule

theorem AccountsForWrites.takeTurn {before : Store} (pass : Nat) (registered : rule ∈ rules)
    (accounts : AccountsForWrites rules before run) :
    AccountsForWrites rules before (takeTurn refraction pass rule run).1 := by
  rw [takeTurn_eq]
  have writes := effect_writesOnly refraction rule run.store (run.history.get? rule.name)
  refine ⟨nodup_foldl_noteWrite accounts.distinct, ?_, ?_⟩
  · have both := accounts.writesOnly.trans writes
    apply both.congr
    intro name
    exact List.mem_append.trans mem_foldl_noteWrite.symm
  · intro name member
    rcases mem_foldl_noteWrite.1 member with known | new
    · obtain ⟨other, isRule, assigned, attempted⟩ := accounts.assigned name known
      exact ⟨other, isRule, assigned, .append (.inl attempted)⟩
    · have attempted := wasAttempted_of_mem_written pass new
      exact ⟨rule, registered, mem_assigned_of_mem_written new, .append (.inr attempted)⟩

end Run

namespace Engine

/-- A run writes what it reports and nothing else. The facts that it reports, each of them once,
are there afterwards, and are assigned by a rule that has fired or failed at one of its actions; all
other facts are as they were before, and none is ever removed. -/
theorem execute_writes_modified (engine : Engine) (identity : String) (store : Store)
    (idle : engine.phase.isRunning = false) :
    ∃ after storeAfter report,
      engine.execute identity store = .ok (after, storeAfter, report) ∧
        report.modified.Nodup ∧
        (∀ name ∈ report.modified, storeAfter.contains name = true) ∧
        (∀ name, name ∉ report.modified → storeAfter.get? name = store.get? name) ∧
        (∀ name, store.contains name = true → storeAfter.contains name = true) ∧
        (∀ turn ∈ engine.turnsOn identity store, ∀ name, store.contains name = true →
          turn.store.contains name = true) ∧
        ∀ name ∈ report.modified, ∃ rule ∈ engine.base.rules,
          (∃ target value, .assign target value ∈ rule.actions ∧ target.root? = some name) ∧
            (rule.name ∈ report.fired ∨
              ∃ failure ∈ report.failures, failure.rule = rule.name ∧ failure.part = .action) := by
  have taken := engine.turns_runOn identity store
  have start : Run.AccountsForWrites engine.base.bySalience store
      (Run.start store (engine.historyOf identity)) :=
    ⟨List.nodup_nil, .nothing store, fun _ member => absurd member List.not_mem_nil⟩
  obtain ⟨inTheEnd, atTurns⟩ := taken.invariant start fun pass rule member _ accounts =>
    accounts.takeTurn pass member
  refine ⟨_, _, _, execute_of_idle idle, inTheEnd.distinct, inTheEnd.writesOnly.present,
    inTheEnd.writesOnly.others, fun name => inTheEnd.writesOnly.contains,
    fun turn isTurn name isThere => ?_, fun name member => ?_⟩
  · obtain ⟨reached, accounts, sameStore⟩ := atTurns turn isTurn
    rw [← sameStore]
    exact accounts.writesOnly.contains isThere
  · obtain ⟨rule, isRule, assigned, attempted⟩ := inTheEnd.assigned name member
    have registered : rule ∈ engine.base.rules := engine.base.perm_bySalience.mem_iff.1 isRule
    exact ⟨rule, registered, Rule.mem_assigned_iff.1 assigned, attempted⟩

/-- A rule that writes into a fact twice before its last action fails. -/
private def filling : Engine :=
  { new .standard with
    base := ⟨.reject,
      [.undescribed "Fill" 0 (.bool true)
        [.assign (.field (.fact "order") "count") (.number 1),
          .assign (.field (.fact "order") "total") (.number 2), .fact "missing"]],
      by decide⟩ }

def ordered : Store :=
  (∅ : Store).set "order" (.object [("count", .number 0)])

theorem execute_writes_modified_filling :
    filling.phase.isRunning = false ∧ ∃ after storeAfter report,
      filling.execute "facts" ordered = .ok (after, storeAfter, report) ∧
        report.modified = ["order"] ∧ report.fired = [] ∧ report.modified.Nodup ∧
        storeAfter.contains "order" = true ∧
        (∀ name, name ≠ "order" → storeAfter.get? name = ordered.get? name) ∧
        ∃ rule ∈ filling.base.rules,
          (∃ target value, .assign target value ∈ rule.actions ∧ target.root? = some "order") ∧
            ∃ failure ∈ report.failures, failure.rule = rule.name ∧ failure.part = .action := by
  refine ⟨rfl, ?_⟩
  obtain ⟨after, storeAfter, report, executed, distinct, present, others, _, _, assigned⟩ :=
    execute_writes_modified filling "facts" ordered rfl
  have isReport : Report.ofFinished (filling.runOn "facts" ordered) = report :=
    (execute_eq_ok_iff.1 executed).2.2.2
  have modified : report.modified = ["order"] := by
    rw [← isReport]
    decide +kernel
  have noneFired : report.fired = [] := by
    rw [← isReport]
    decide +kernel
  rw [modified] at present others assigned
  obtain ⟨rule, registered, assigns, attempted⟩ := assigned "order" List.mem_cons_self
  rw [noneFired] at attempted
  have failed := attempted.resolve_left List.not_mem_nil
  refine ⟨after, storeAfter, report, executed, modified, noneFired, distinct,
    present "order" List.mem_cons_self, fun name different => others name ?_, rule, registered,
    assigns, failed⟩
  exact fun member => different (List.mem_singleton.1 member)

end Engine

end Rulebook
