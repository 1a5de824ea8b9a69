import Mathlib.Data.List.Nodup
import Rulebook.Proofs.Engine.Log
import Rulebook.Proofs.RuleBase.Entries

/-!
# Refraction

Refraction. The signatures that an engine keeps are those of the last attempts in its log, for all
rules that it has and on all stores. A rule whose condition holds is therefore attempted where it
was not attempted before, or where a fact that its condition mentions is another than it was then.
-/

namespace Rulebook

/-- Whether a rule is due on a store, given the facts at its last attempt: there was none, or a fact
that the condition mentions differs, in presence or in its value. -/
def Rule.IsDue (rule : Rule) (last? : Option Store) (store : Store) : Prop :=
  last? = none ∨
    ∃ before, last? = some before ∧
      ∃ name ∈ rule.condition.references,
        Signature.sameFact (before.get? name) (store.get? name) = false

/-! ## Signatures -/

/-- What is recorded of a rule in a history, as far as it depends on its last attempt. -/
def Recorded (rule : Rule) (last? : Option Store) (history : History) : Prop :=
  history.get? rule.name = last?.map (Signature.ofRule rule)

/-- A rule is not suppressed exactly if the facts that it reads differ from those of its last
attempt. -/
theorem Recorded.not_suppressed_iff {rule : Rule} {last? : Option Store} {history : History}
    (recorded : Recorded rule last? history) (store : Store) :
    ¬ Run.Suppressed true rule history store ↔ rule.IsDue last? store := by
  rw [Run.Suppressed, Run.isSuppressed, recorded, Bool.true_and, Rule.IsDue]
  cases last? with
  | none => simp
  | some before =>
      simp only [Option.map_some, Signature.same_ofRule_iff, reduceCtorEq, Option.some.injEq,
        false_or, exists_eq_left', not_forall, Bool.not_eq_true, exists_prop]

/-! ## Turns -/

/-- Whether a history has the last attempts of some rules on a store, as a log has them. -/
def Tracks (identity : String) (rules : List Rule) (log : List Event) (history : History) : Prop :=
  ∀ rule ∈ rules, Recorded rule (lastAttempt? identity rule.name log) history

/-- Whether at each turn in a log the actions of a rule were attempted just if the rule was due,
where its condition held. -/
def IsExact (log : List Event) : Prop :=
  ∀ past identity turn, past ++ [.turn identity turn] <+: log → turn.rule.Holds turn.store →
    (turn.attempted = true ↔
      turn.rule.IsDue (lastAttempt? identity turn.rule.name past) turn.store)

private theorem isExact_nil : IsExact [] := by
  intro past identity turn isPrefix
  exact absurd (List.prefix_nil.1 isPrefix) (by simp)

theorem IsExact.snoc {log : List Event} {event : Event} (exact_ : IsExact log)
    (last : ∀ identity turn, event = .turn identity turn → turn.rule.Holds turn.store →
      (turn.attempted = true ↔
        turn.rule.IsDue (lastAttempt? identity turn.rule.name log) turn.store)) :
    IsExact (log ++ [event]) := by
  intro past identity turn isPrefix
  rcases List.prefix_concat_iff.1 isPrefix with whole | earlier
  · obtain ⟨rfl, same⟩ := List.append_inj' whole rfl
    injection same with sameEvent
    exact last identity turn sameEvent.symm
  · exact exact_ past identity turn earlier

variable {identity : String} {rules : List Rule} {log : List Event} {pass : Nat} {rule : Rule}
  {run last : Run}

theorem attempted_turn_iff_isDue {last? : Option Store}
    (recorded : Recorded rule last? run.history) (holds : rule.Holds run.store) :
    (Run.turn true pass rule run).attempted = true ↔ rule.IsDue last? run.store := by
  rw [Run.attempted_turn_iff, recorded.not_suppressed_iff]
  exact and_iff_right holds

/-- A turn keeps the history and the log in agreement. -/
theorem Tracks.turn (distinct : (ruleNames rules).Nodup) (member : rule ∈ rules)
    (tracks : Tracks identity rules log run.history) :
    Tracks identity rules (log ++ [.turn identity (Run.turn true pass rule run)])
      (Run.takeTurn true pass rule run).1.history := by
  intro other otherMember
  rw [Recorded]
  cases attempted : (Run.turn true pass rule run).attempted with
  | false =>
      rw [lastAttempt?_not_attempted identity other.name log attempted,
        Run.takeTurn_history_of_not_attempted attempted]
      exact tracks other otherMember
  | true =>
      rw [Run.takeTurn_history_of_attempted attempted, Run.recordAttempt, if_pos rfl]
      by_cases same : other.name = rule.name
      · obtain rfl : other = rule :=
          List.inj_on_of_nodup_map distinct otherMember member same
        rw [Table.get?_set_self]
        exact (congrArg (Option.map (Signature.ofRule other))
          (lastAttempt?_attempted identity log attempted)).symm
      · rw [Table.get?_set_of_ne _ _ same,
          lastAttempt?_turn_of_name_ne identity log (Ne.symm same)]
        exact tracks other otherMember

/-- The turns of a run keep the history in step with the log, and are exact. -/
theorem Run.Turns.exact {turns : List Turn} (distinct : (ruleNames rules).Nodup)
    (taken : Run.Turns true rules run turns last) (tracks : Tracks identity rules log run.history)
    (exact_ : IsExact log) :
    Tracks identity rules (log ++ turns.map (.turn identity)) last.history ∧
      IsExact (log ++ turns.map (.turn identity)) := by
  induction taken generalizing log with
  | nil run =>
      rw [List.map_nil, List.append_nil]
      exact ⟨tracks, exact_⟩
  | cons pass member _ inductionHypothesis =>
      rw [List.map_cons, List.append_cons]
      refine inductionHypothesis (tracks.turn distinct member) (exact_.snoc ?_)
      rintro identity turn ⟨⟩ holds
      exact attempted_turn_iff_isDue (tracks _ member) holds

/-! ## Engines -/

theorem historyOf_forgetRule_get? (engine : Engine) (name other store : String) :
    ((engine.forgetRule name).historyOf store).get? other =
      if other = name then none else (engine.historyOf store).get? other := by
  rw [Engine.historyOf_forgetRule]
  by_cases same : other = name
  · subst same
    rw [Table.get?_erase_self, if_pos rfl]
  · rw [Table.get?_erase_of_ne _ same, if_neg same]

/-- The rules behind an addition: the one that was added, and those of other names from before. -/
theorem mem_rules_of_add? {base after : RuleBase} {added : Rule}
    (isAdded : base.add? added = some after) {rule : Rule} (member : rule ∈ after.rules) :
    rule = added ∨ (rule ∈ base.rules ∧ rule.name ≠ added.name) := by
  rcases RuleBase.rules_of_add? isAdded with ⟨absent, isNew⟩ | ⟨_, isReplaced⟩
  · rw [isNew] at member
    rcases List.mem_append.1 member with old | new
    · exact .inr ⟨old, fun sameName => absent (sameName ▸ List.mem_map_of_mem old)⟩
    · exact .inl (List.mem_singleton.1 new)
  · rw [isReplaced] at member
    obtain ⟨old, oldMember, rfl⟩ := List.mem_map.1 member
    by_cases sameName : old.name = added.name
    · exact .inl (if_pos sameName)
    · rw [if_neg sameName]
      exact .inr ⟨oldMember, sameName⟩

theorem mem_rules_of_mem_add? {base after : RuleBase} {added rule : Rule}
    (isAdded : base.add? added = some after) (registered : rule ∈ base.rules)
    (different : rule.name ≠ added.name) : rule ∈ after.rules := by
  rcases RuleBase.rules_of_add? isAdded with ⟨_, isNew⟩ | ⟨_, isReplaced⟩
  · rw [isNew]
    exact List.mem_append_left _ registered
  · rw [isReplaced]
    exact List.mem_map.2 ⟨rule, registered, if_neg different⟩

/-- Whether the history on each store has the last attempts of all rules of an engine. -/
def TracksAll (log : List Event) (engine : Engine) : Prop :=
  ∀ identity, Tracks identity engine.base.rules log (engine.historyOf identity)

private theorem tracksAll_new (settings : Settings) : TracksAll [] (.new settings) := by
  intro identity rule member
  cases member

theorem TracksAll.add {engine after : Engine} (tracks : TracksAll log engine)
    (added : engine.addRule rule = .ok after) : TracksAll (log ++ [.added rule]) after := by
  obtain ⟨_, _, _, base, isAdded, rfl⟩ := Engine.addRule_eq_ok added
  intro identity other member
  rw [Recorded, historyOf_forgetRule_get?, lastAttempt?_added]
  rcases mem_rules_of_add? isAdded member with rfl | ⟨old, different⟩
  · rw [if_pos rfl, if_pos rfl, Option.map_none]
  · rw [if_neg different, if_neg (Ne.symm different)]
    exact tracks identity other old

theorem TracksAll.remove {engine after : Engine} {name : String} {removed? : Option Rule}
    (tracks : TracksAll log engine) (removed : engine.removeRule name = .ok (after, removed?)) :
    TracksAll (log ++ [.removed name]) after := by
  obtain ⟨_, _, rfl⟩ := Engine.removeRule_eq_ok removed
  intro identity other member
  obtain ⟨old, kept⟩ := List.mem_filter.1 member
  rw [Recorded, historyOf_forgetRule_get?, if_neg (bne_iff_ne.1 kept), lastAttempt?_snoc]
  exact tracks identity other old

theorem TracksAll.reset {engine after : Engine} (wasReset : engine.reset = .ok after) :
    TracksAll (log ++ [.reset]) after := by
  obtain ⟨_, rfl⟩ := Engine.reset_eq_ok wasReset
  intro identity other _
  rw [Recorded, lastAttempt?_snoc]
  rfl

/-- The turns of a run on a store keep the histories of all stores in step with the log. -/
theorem TracksAll.execute {engine : Engine} (tracks : TracksAll log engine) (store : Store)
    (exact_ : IsExact log)
    (refraction : engine.settings.refraction = true) :
    TracksAll (log ++ (engine.turnsOn identity store).map (.turn identity))
        (engine.ranOn identity store) ∧
      IsExact (log ++ (engine.turnsOn identity store).map (.turn identity)) := by
  have taken : Run.Turns true engine.base.bySalience
      (Run.start store (engine.historyOf identity)) (engine.turnsOn identity store)
      (engine.runOn identity store).run := by
    have taken := engine.turns_runOn identity store
    rwa [refraction] at taken
  have inOrder : Tracks identity engine.base.bySalience log (engine.historyOf identity) :=
    fun rule member => tracks identity rule (engine.base.perm_bySalience.mem_iff.1 member)
  obtain ⟨tracksAfter, exactAfter⟩ := taken.exact engine.base.nodup_bySalience inOrder exact_
  refine ⟨?_, exactAfter⟩
  intro other rule member
  by_cases same : other = identity
  · subst same
    rw [Engine.historyOf_ranOn]
    exact tracksAfter rule (engine.base.perm_bySalience.mem_iff.2 member)
  · rw [Recorded, Engine.historyOf_ranOn_of_ne same,
      lastAttempt?_turns_of_ne (Ne.symm same)]
    exact tracks other rule member

/-! ## Sessions -/

theorem IsExact.other {event : Event} (exact_ : IsExact log)
    (noTurn : ∀ identity turn, event ≠ .turn identity turn) : IsExact (log ++ [event]) :=
  exact_.snoc fun identity turn same => absurd same (noTurn identity turn)

private theorem tracks_of_logged {settings : Settings} {session : Session}
    (refraction : settings.refraction = true) (logged : Logged settings log session) :
    session.engine.settings = settings ∧ TracksAll log session.engine ∧ IsExact log := by
  induction logged with
  | start stores => exact ⟨rfl, tracksAll_new settings, isExact_nil⟩
  | add _ added inductionHypothesis =>
      obtain ⟨sameSettings, tracks, exact_⟩ := inductionHypothesis
      obtain ⟨_, _, _, base, _, rfl⟩ := Engine.addRule_eq_ok added
      exact ⟨sameSettings, tracks.add added, exact_.other (by simp)⟩
  | remove _ removed inductionHypothesis =>
      obtain ⟨sameSettings, tracks, exact_⟩ := inductionHypothesis
      obtain ⟨_, _, rfl⟩ := Engine.removeRule_eq_ok removed
      exact ⟨sameSettings, tracks.remove removed, exact_.other (by simp)⟩
  | reset _ wasReset inductionHypothesis =>
      obtain ⟨sameSettings, _, exact_⟩ := inductionHypothesis
      obtain ⟨_, rfl⟩ := Engine.reset_eq_ok wasReset
      exact ⟨sameSettings, TracksAll.reset wasReset, exact_.other (by simp)⟩
  | @execute log session after identity report _ executed inductionHypothesis =>
      obtain ⟨sameSettings, tracks, exact_⟩ := inductionHypothesis
      obtain ⟨tracksAfter, exactAfter⟩ :=
        tracks.execute (session.store identity) exact_ (sameSettings ▸ refraction)
      rw [Session.engine_of_execute executed]
      exact ⟨sameSettings, tracksAfter, exactAfter⟩
  | change identity store _ inductionHypothesis =>
      obtain ⟨sameSettings, tracks, exact_⟩ := inductionHypothesis
      refine ⟨sameSettings, ?_, exact_.other (by simp)⟩
      intro other rule member
      rw [Recorded, lastAttempt?_snoc]
      exact tracks other rule member

/-- With refraction, at each turn of a rule on a store at which its condition holds, its actions are
attempted just if it was not attempted on the store since it was added and all attempts were
forgotten, or a fact that its condition mentions differs from what it was at the last attempt. -/
theorem attempted_iff_isDue {settings : Settings} {session : Session} {past : List Event}
    {turn : Turn} (refraction : settings.refraction = true) (logged : Logged settings log session)
    (isTurn : past ++ [.turn identity turn] <+: log) (holds : turn.rule.Holds turn.store) :
    turn.attempted = true ↔
      turn.rule.IsDue (lastAttempt? identity turn.rule.name past) turn.store :=
  (tracks_of_logged refraction logged).2.2 past identity turn isTurn holds

private def passOn : Rule :=
  .undescribed "pass on" 0 (.fact "x") [.assign (.fact "y") (.fact "x")]

private def passingOn : Session :=
  ⟨{ Engine.new .standard with base := ⟨.reject, [passOn], by simp [ruleNames]⟩ },
    (∅ : Table Store).set "facts" ((∅ : Store).set "x" (.bool true))⟩

/-- The run of that engine before its first turn. -/
private def passOnStart : Run :=
  .start (passingOn.store "facts") (passingOn.engine.historyOf "facts")

/-- The same run after its first turn. -/
private def passOnFired : Run :=
  (Run.takeTurn true 1 passOn passOnStart).1

private theorem turnsOn_passingOn :
    passingOn.engine.turnsOn "facts" (passingOn.store "facts") =
      [Run.turn true 1 passOn passOnStart, Run.turn true 2 passOn passOnFired] := by
  have order : passingOn.engine.base.bySalience = [passOn] := by
    simp [passingOn, RuleBase.bySalience]
  have firstChanged : (Run.takePass true 1 [passOn] passOnStart).2 = true := by decide +kernel
  have secondUnchanged : ¬ (Run.takePass true 2 [passOn] passOnFired).2 = true := by
    decide +kernel
  rw [Engine.turnsOn, order]
  show Run.runTurns true [passOn] (98 + 1 + 1) 0 passOnStart = _
  rw [Run.runTurns, if_pos firstChanged, Run.runTurns]
  show _ ++ (_ ++ if (Run.takePass true 2 [passOn] passOnFired).2 = true then _ else _) = _
  rw [if_neg secondUnchanged]
  rfl

theorem attempted_iff_isDue_passOn :
    ∃ log session past,
      Logged .standard log session ∧
        past ++ [.turn "facts" (Run.turn true 2 passOn passOnFired)] <+: log ∧
        passOn.Holds passOnFired.store ∧
        ((Run.turn true 2 passOn passOnFired).attempted = true ↔
          passOn.IsDue (lastAttempt? "facts" passOn.name past) passOnFired.store) := by
  have start : Logged .standard [] ⟨.new .standard, passingOn.stores⟩ := .start _
  have free : passOn.condition.hasAssignment = false := by decide +kernel
  have isAdded : (Engine.new .standard).addRule passOn = .ok passingOn.engine := by
    rw [Engine.addRule, Engine.whenIdle, if_neg (by decide), Engine.addIdle, if_neg (by decide),
      if_neg (Bool.eq_false_iff.1 free)]
    rfl
  have idle : passingOn.engine.phase.isRunning = false := rfl
  have ran : ∃ after report, passingOn.execute "facts" = .ok (after, report) := by
    rw [Session.execute, Engine.execute_of_idle idle]
    exact ⟨_, _, rfl⟩
  obtain ⟨after, report, isRun⟩ := ran
  have logged := (start.add isAdded).execute isRun
  rw [turnsOn_passingOn] at logged
  have holds : passOn.Holds passOnFired.store := rfl
  have isTurn : [Event.added passOn, .turn "facts" (Run.turn true 1 passOn passOnStart)] ++
      [.turn "facts" (Run.turn true 2 passOn passOnFired)] <+: _ := List.prefix_refl _
  exact ⟨_, _, _, logged, isTurn, holds, attempted_iff_isDue rfl logged isTurn holds⟩

end Rulebook
