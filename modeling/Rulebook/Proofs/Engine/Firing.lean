import Mathlib.Data.List.Nodup
import Rulebook.Proofs.Engine.Rest

/-!
# Rules that fire

Which rules fire before a run comes to rest. Every attempt that a run records was made at one of its
turns, and the rule fired there unless one of its actions failed. So a rule that could fire in the
end has fired, or its last attempt failed on facts that its condition cannot tell from those in the
end. The second case does occur, since a failed attempt is recorded as well.
-/

namespace Rulebook

/-- Whether all actions of a rule succeed, one after another. -/
def Rule.Succeeds (rule : Rule) (store : Store) : Prop :=
  (Run.performAll store rule.actions).fault? = none

namespace Run

variable {refraction : Bool} {pass : Nat} {rule : Rule} {rules : List Rule} {run last : Run}

/-! ## Recorded attempts -/

/-- Whether the attempt that a signature records was made at a turn of a rule of some name, and the
rule was reported to have fired there if its actions succeeded. -/
structure MadeAt (fired : List String) (name : String) (signature : Signature) (turn : Turn) :
    Prop where
  name_eq : turn.rule.name = name
  attempted : turn.attempted = true
  signature_eq : Signature.ofRule turn.rule turn.store = signature
  reported : turn.rule.Succeeds turn.store → name ∈ fired

/-- Whether all attempts that a run has recorded were made at some of the turns. -/
def Accounted (turns : List Turn) (run : Run) : Prop :=
  ∀ name signature, run.history.get? name = some signature →
    ∃ turn ∈ turns, MadeAt run.fired name signature turn

/-- What fired once has fired later on as well. -/
theorem MadeAt.mono {fired firedLater : List String} {name : String} {signature : Signature}
    {turn : Turn} (made : MadeAt fired name signature turn)
    (grown : ∀ other ∈ fired, other ∈ firedLater) : MadeAt firedLater name signature turn :=
  { made with reported := fun succeeds => grown name (made.reported succeeds) }

private theorem mem_fired_takeTurn {name : String} (member : name ∈ run.fired) :
    name ∈ (takeTurn refraction pass rule run).1.fired := by
  have possible := takeTurn_cases refraction pass rule run
  generalize takeTurn refraction pass rule run = result at *
  cases possible with
  | attempted holds notSuppressed =>
      rw [attempt_fired]
      split
      · exact List.mem_append_left _ member
      · exact member
  | _ => exact member

private theorem mem_fired_of_attempted (attempted : (turn refraction pass rule run).attempted = true)
    (succeeds : rule.Succeeds run.store) :
    rule.name ∈ (takeTurn refraction pass rule run).1.fired := by
  obtain ⟨holds, notSuppressed⟩ := attempted_turn_iff.1 attempted
  have noFault : (performAll run.store rule.actions).fault? = none := succeeds
  rw [takeTurn_of_holds holds notSuppressed, attempt_fired, noFault]
  exact List.mem_append_right _ List.mem_cons_self

private theorem accounted_start (store : Store) : Accounted [] (start store ∅) := by
  intro name signature found
  rw [start, Table.get?_empty] at found
  cases found

theorem Accounted.turn {turns : List Turn} (accounted : Accounted turns run) :
    Accounted (turns ++ [turn refraction pass rule run])
      (takeTurn refraction pass rule run).1 := by
  intro name signature found
  have earlier (old : run.history.get? name = some signature) :
      ∃ taken ∈ turns ++ [Run.turn refraction pass rule run],
        MadeAt (takeTurn refraction pass rule run).1.fired name signature taken := by
    obtain ⟨taken, member, made⟩ := accounted name signature old
    exact ⟨taken, List.mem_append_left _ member, made.mono fun _ => mem_fired_takeTurn⟩
  cases attempted : (Run.turn refraction pass rule run).attempted with
  | false =>
      rw [takeTurn_history_of_not_attempted attempted] at found
      exact earlier found
  | true =>
      rw [takeTurn_history_of_attempted attempted, recordAttempt] at found
      cases refraction with
      | false => exact earlier found
      | true =>
          by_cases same : name = rule.name
          · subst same
            rw [if_pos rfl, Table.get?_set_self] at found
            have made : MadeAt (takeTurn true pass rule run).1.fired rule.name signature
                (Run.turn true pass rule run) :=
              ⟨rfl, attempted, Option.some.inj found, mem_fired_of_attempted attempted⟩
            exact ⟨_, List.mem_append_right _ List.mem_cons_self, made⟩
          · rw [if_pos rfl, Table.get?_set_of_ne _ _ same] at found
            exact earlier found

/-- Along all turns of a run each signature in the history is accounted for by an attempt. -/
theorem Turns.accounted {past turns : List Turn} (taken : Turns refraction rules run turns last)
    (accounted : Accounted past run) : Accounted (past ++ turns) last := by
  induction taken generalizing past with
  | nil run => simpa using accounted
  | cons pass member _ inductionHypothesis =>
      rw [List.append_cons]
      exact inductionHypothesis accounted.turn

theorem Turns.mem_rules {turns : List Turn} (taken : Turns refraction rules run turns last) :
    ∀ turn ∈ turns, turn.rule ∈ rules := by
  induction taken with
  | nil run => simp
  | cons pass member _ inductionHypothesis =>
      intro turn isTurn
      rcases List.mem_cons.1 isTurn with rfl | later
      · exact member
      · exact inductionHypothesis turn later

/-! ## Rules that could fire in the end -/

private theorem exists_signature_of_suppressed {history : History} {store : Store}
    (suppressed : Suppressed refraction rule history store) :
    ∃ signature, history.get? rule.name = some signature ∧
      signature.same (Signature.ofRule rule store) = true := by
  rw [Suppressed, isSuppressed, Bool.and_eq_true] at suppressed
  cases found : history.get? rule.name with
  | none => simp [found] at suppressed
  | some signature =>
      rw [found] at suppressed
      exact ⟨signature, rfl, suppressed.2⟩

/-- At rest, a rule that could fire is passed over because of its last attempt. -/
theorem Rests.suppressed {store : Store} {history : History}
    (rests : Rests refraction store history rule) (holds : rule.Holds store)
    (succeeds : rule.Succeeds store) : Suppressed refraction rule history store := by
  rcases rests with notHolding | suppressed | ⟨failed, -⟩
  · exact absurd holds notHolding
  · exact suppressed
  · have noFault : (performAll store rule.actions).fault? = none := succeeds
    rw [noFault] at failed
    cases failed

end Run

namespace Engine

variable {engine after : Engine} {identity : String} {store storeAfter : Store} {report : Report}

/-- In a run from the first attempts to rest, a rule that could fire in the end either has fired, or
one of its actions failed at an attempt at which the facts that its condition mentions were as they
are in the end. -/
theorem execute_fires
    (fresh : engine.historyOf identity = ∅)
    (executed : engine.execute identity store = .ok (after, storeAfter, report))
    (atRest : report.boundReached = false) {rule : Rule} (member : rule ∈ engine.base.rules)
    (holds : rule.Holds storeAfter) (succeeds : rule.Succeeds storeAfter) :
    rule.name ∈ report.fired ∨
      ∃ turn ∈ engine.turnsOn identity store,
        turn.rule = rule ∧ turn.attempted = true ∧ ¬ rule.Succeeds turn.store ∧
          ∀ name ∈ rule.condition.references,
            Signature.sameFact (turn.store.get? name) (storeAfter.get? name) = true := by
  obtain ⟨_, rfl, rfl, rfl⟩ := execute_eq_ok_iff.1 executed
  have inOrder : rule ∈ engine.base.bySalience := engine.base.perm_bySalience.mem_iff.2 member
  have taken := engine.turns_runOn identity store
  have accounted : Run.Accounted (engine.turnsOn identity store)
      (engine.runOn identity store).run := by
    have start : Run.Accounted [] (Run.start store (engine.historyOf identity)) :=
      fresh ▸ Run.accounted_start store
    exact taken.accounted start
  have rests := Run.rests_of_takePasses engine.base.nodup_bySalience atRest rule inOrder
  obtain ⟨signature, found, same⟩ :=
    Run.exists_signature_of_suppressed (rests.suppressed holds succeeds)
  obtain ⟨turn, isTurn, made⟩ := accounted rule.name signature found
  have isRule : turn.rule = rule :=
    List.inj_on_of_nodup_map engine.base.nodup_bySalience (taken.mem_rules turn isTurn) inOrder
      made.name_eq
  by_cases succeeded : rule.Succeeds turn.store
  · exact .inl (made.reported (isRule.symm ▸ succeeded))
  · have sameFacts := made.signature_eq
    rw [isRule] at sameFacts
    rw [← sameFacts, Signature.same_ofRule_iff] at same
    exact .inr ⟨turn, isTurn, isRule, made.attempted, succeeded, same⟩

private def user : Rule :=
  .undescribed "Use" 1 (.bool true) [.assign (.fact "b") (.fact "a")]

private def maker : Rule :=
  .undescribed "Make" 0 (.bool true) [.assign (.fact "a") (.number 1)]

private def usingMade : Engine :=
  { new .standard with base := ⟨.reject, [user, maker], by decide⟩ }

theorem runOn_usingMade :
    (usingMade.runOn "facts" ∅).run.fired = ["Make"] ∧
      (usingMade.runOn "facts" ∅).boundReached = false ∧
      user.Succeeds (usingMade.runOn "facts" ∅).run.store := by
  have order : usingMade.base.bySalience = usingMade.base.rules := by
    refine List.mergeSort_of_pairwise ?_
    simp [usingMade, user, maker, Rule.undescribed]
  rw [runOn, order, Rule.Succeeds, ← Option.isNone_iff_eq_none]
  decide +kernel

theorem execute_fires_usingMade :
    usingMade.historyOf "facts" = ∅ ∧ (usingMade.runOn "facts" ∅).boundReached = false ∧
      user ∈ usingMade.base.rules ∧ user.Holds (usingMade.runOn "facts" ∅).run.store ∧
      user.Succeeds (usingMade.runOn "facts" ∅).run.store ∧
      ∃ turn ∈ usingMade.turnsOn "facts" ∅,
        turn.rule = user ∧ turn.attempted = true ∧ ¬ user.Succeeds turn.store ∧
          ∀ name ∈ user.condition.references,
            Signature.sameFact (turn.store.get? name)
              ((usingMade.runOn "facts" ∅).run.store.get? name) = true := by
  obtain ⟨onlyMake, atRest, succeeds⟩ := runOn_usingMade
  have member : user ∈ usingMade.base.rules := List.mem_cons_self
  have holds : user.Holds (usingMade.runOn "facts" ∅).run.store := rfl
  refine ⟨rfl, atRest, member, holds, succeeds, ?_⟩
  rcases execute_fires rfl (execute_of_idle rfl) atRest member holds succeeds with fired | failed
  · rw [Report.ofFinished, onlyMake] at fired
    exact absurd fired (by decide)
  · exact failed

/-- A rule that could fire in the end need not have fired: where an action of it failed, it waits
until a fact that its condition mentions has changed, though others may have been missing. -/
theorem not_all_fire :
    ¬ ∀ (engine after : Engine) (identity : String) (store storeAfter : Store) (report : Report),
      engine.settings.refraction = true → engine.historyOf identity = ∅ →
        engine.execute identity store = .ok (after, storeAfter, report) →
          report.boundReached = false → ∀ rule ∈ engine.base.rules, rule.Holds storeAfter →
            rule.Succeeds storeAfter → rule.name ∈ report.fired := by
  intro complete
  obtain ⟨onlyMake, atRest, succeeds⟩ := runOn_usingMade
  have fired := complete usingMade _ "facts" ∅ _ _ rfl rfl (execute_of_idle rfl) atRest user
    List.mem_cons_self rfl succeeds
  rw [Report.ofFinished, onlyMake] at fired
  exact absurd fired (by decide)

end Engine

end Rulebook
