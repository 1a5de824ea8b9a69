import Mathlib.Data.List.Nodup
import Rulebook.Proofs.Engine.Refraction
import Rulebook.Proofs.Engine.Settled

/-!
# Rules that fire at most once

Rules that fire at most once. Where nothing writes the facts that the condition of a rule mentions,
the rule is settled from its first attempt on, in all runs on a store. This needs facts that are the
same as themselves: what is not a number counts as changed each time.
-/

namespace Rulebook

namespace Run

variable {pass : Nat} {rule other : Rule} {rules : List Rule} {run last : Run}
  {earlier : List String}

/-- Whether a rule has fired at most once, and is settled if it has. -/
structure AtMostOnce (rule : Rule) (fired : List String) (store : Store) (history : History) :
    Prop where
  count : fired.count rule.name ≤ 1
  settled : rule.name ∈ fired → Settled store history rule

theorem AtMostOnce.congr {fired : List String} {store after : Store} {history later : History}
    (agree : Store.AgreeOn rule.condition.references store after)
    (same : history.get? rule.name = later.get? rule.name)
    (once : AtMostOnce rule fired store history) : AtMostOnce rule fired after later :=
  ⟨once.count, fun member => (once.settled member).congr agree same⟩

/-! ## Turns -/

/-- At its own turn a rule fires only if it has not fired before. -/
theorem AtMostOnce.ownTurn
    (notAssigned : ∀ name ∈ rule.condition.references, name ∉ rule.assigned)
    (selfSame : (Signature.ofRule rule run.store).IsSelfSame)
    (once : AtMostOnce rule (earlier ++ run.fired) run.store run.history) :
    AtMostOnce rule (earlier ++ (takeTurn true pass rule run).1.fired)
      (takeTurn true pass rule run).1.store (takeTurn true pass rule run).1.history := by
  refine ⟨?_, fun _ => settled_after_turn notAssigned selfSame⟩
  -- a rule that has fired is settled, so that its turn adds nothing
  by_cases before : rule.name ∈ earlier ++ run.fired
  · have rests : Rests true run.store run.history rule := (once.settled before).rests
    have unmoved : Unmoved run (takeTurn true pass rule run).1 :=
      unmoved_of_unchanged (takeTurn_unchanged_iff.2 rests)
    rw [unmoved.fired]
    exact once.count
  · rw [takeTurn_eq]
    generalize effect true rule run.store (run.history.get? rule.name) = added
    have notBefore : (earlier ++ run.fired).count rule.name = 0 := List.count_eq_zero.2 before
    have addedOnce : (added.fired rule).count rule.name ≤ 1 := by
      rw [Effect.fired]
      split <;> simp
    show (earlier ++ (run.fired ++ added.fired rule)).count rule.name ≤ 1
    rw [← List.append_assoc, List.count_append, notBefore, Nat.zero_add]
    exact addedOnce

/-- The turn of another rule is none of its firings. -/
theorem AtMostOnce.otherTurn (different : rule.name ≠ other.name)
    (notAssigned : ∀ name ∈ rule.condition.references, name ∉ other.assigned)
    (once : AtMostOnce rule (earlier ++ run.fired) run.store run.history) :
    AtMostOnce rule (earlier ++ (takeTurn true pass other run).1.fired)
      (takeTurn true pass other run).1.store (takeTurn true pass other run).1.history := by
  have agree : Store.AgreeOn rule.condition.references run.store
      (takeTurn true pass other run).1.store := agreeOn_of_not_assigned notAssigned
  have sameHistory : run.history.get? rule.name =
      (takeTurn true pass other run).1.history.get? rule.name :=
    (takeTurn_history_of_ne different).symm
  have kept := once.congr agree sameHistory
  have notAdded (added : Effect) : rule.name ∉ added.fired other := by
    rw [Effect.fired]
    split <;> simp [different]
  have fired : (takeTurn true pass other run).1.fired = run.fired ++ _ :=
    congrArg (fun result => result.1.fired) (takeTurn_eq true pass other run)
  rw [fired, ← List.append_assoc]
  refine ⟨?_, fun member => ?_⟩
  · rw [List.count_append, List.count_eq_zero.2 (notAdded _), Nat.add_zero]
    exact kept.count
  · rcases List.mem_append.1 member with before | new
    · exact kept.settled before
    · exact absurd new (notAdded _)

/-! ## Runs -/

/-- During one run a rule fires at most once as long as no other rule assigns what it reads. -/
theorem Turns.atMostOnce {turns : List Turn} (taken : Turns true rules run turns last)
    (distinct : (ruleNames rules).Nodup) (registered : rule ∈ rules)
    (notAssigned : ∀ other ∈ rules, ∀ name ∈ rule.condition.references, name ∉ other.assigned)
    (selfSame : (Signature.ofRule rule run.store).IsSelfSame)
    (once : AtMostOnce rule (earlier ++ run.fired) run.store run.history) :
    AtMostOnce rule (earlier ++ last.fired) last.store last.history ∧
      Store.AgreeOn rule.condition.references run.store last.store := by
  induction taken with
  | nil run => exact ⟨once, fun _ _ => rfl⟩
  | @cons pass other run last later member _ inductionHypothesis =>
      have agree : Store.AgreeOn rule.condition.references run.store
          (takeTurn true pass other run).1.store :=
        agreeOn_of_not_assigned (notAssigned other member)
      have onceAfter : AtMostOnce rule (earlier ++ (takeTurn true pass other run).1.fired)
          (takeTurn true pass other run).1.store (takeTurn true pass other run).1.history := by
        by_cases same : rule.name = other.name
        · obtain rfl : rule = other := List.inj_on_of_nodup_map distinct registered member same
          exact once.ownTurn (notAssigned rule member) selfSame
        · exact once.otherTurn same (notAssigned other member)
      -- the facts of the condition have not changed, so they are still the same as themselves
      have selfSameAfter := selfSame
      rw [Signature.ofRule_congr agree] at selfSameAfter
      obtain ⟨onceLast, agreeLater⟩ := inductionHypothesis selfSameAfter onceAfter
      exact ⟨onceLast, fun name mentioned =>
        (agree name mentioned).trans (agreeLater name mentioned)⟩

end Run

/-! ## Sessions -/

/-- `Undisturbed identity rule start fired session` means that runs on a store, and changes between
them, lead from one session to another, and that these rules have fired on the store. No rule may
assign a fact that the condition of the given rule mentions, no change may write one, and the given
rule stays as it is. -/
inductive Undisturbed (identity : String) (rule : Rule) (start : Session) :
    List String → Session → Prop
  | start :
      Undisturbed identity rule start [] start
  | execute {fired : List String} {session after : Session} {report : Report} :
      Undisturbed identity rule start fired session →
      (∀ other ∈ session.engine.base.rules, ∀ name ∈ rule.condition.references,
        name ∉ other.assigned) →
      session.execute identity = .ok (after, report) →
      Undisturbed identity rule start (fired ++ report.fired) after
  | executeOther {fired : List String} {session after : Session} {other : String}
      {report : Report} :
      Undisturbed identity rule start fired session →
      other ≠ identity →
      session.execute other = .ok (after, report) →
      Undisturbed identity rule start fired after
  | change {fired : List String} {session : Session} (store : Store) :
      Undisturbed identity rule start fired session →
      Store.AgreeOn rule.condition.references (session.store identity) store →
      Undisturbed identity rule start fired (session.setStore identity store)
  | changeOther {fired : List String} {session : Session} {other : String} (store : Store) :
      Undisturbed identity rule start fired session →
      other ≠ identity →
      Undisturbed identity rule start fired (session.setStore other store)
  | renewOther {fired : List String} {session : Session} {other : String} (store : Store) :
      Undisturbed identity rule start fired session →
      other ≠ identity →
      Undisturbed identity rule start fired (session.renewStore other store)
  | add {fired : List String} {session : Session} {added : Rule} {after : Engine} :
      Undisturbed identity rule start fired session →
      rule.name ≠ added.name →
      session.engine.addRule added = .ok after →
      Undisturbed identity rule start fired { session with engine := after }
  | remove {fired : List String} {session : Session} {name : String} {after : Engine}
      {removed? : Option Rule} :
      Undisturbed identity rule start fired session →
      rule.name ≠ name →
      session.engine.removeRule name = .ok (after, removed?) →
      Undisturbed identity rule start fired { session with engine := after }

section Sessions

variable {identity other : String} {rule : Rule} {start session after : Session}
  {fired : List String} {report : Report}

/-- What stays as it is in an undisturbed session: refraction, the rule, and the facts that its
condition mentions; and that the rule has fired at most once. -/
structure Spares (identity : String) (rule : Rule) (start : Session) (fired : List String)
    (session : Session) : Prop where
  refraction : session.engine.settings.refraction = true
  registered : rule ∈ session.engine.base.rules
  agree : Store.AgreeOn rule.condition.references (start.store identity) (session.store identity)
  once : Run.AtMostOnce rule fired (session.store identity) (session.engine.historyOf identity)

theorem Spares.execute
    (selfSame : (Signature.ofRule rule (start.store identity)).IsSelfSame)
    (notAssigned : ∀ other ∈ session.engine.base.rules, ∀ name ∈ rule.condition.references,
      name ∉ other.assigned)
    (spares : Spares identity rule start fired session)
    (executed : session.execute identity = .ok (after, report)) :
    Spares identity rule start (fired ++ report.fired) after := by
  obtain ⟨_, rfl, rfl⟩ := Session.execute_eq_ok executed
  have perm := session.engine.base.perm_bySalience
  have taken := session.engine.turns_runOn identity (session.store identity)
  rw [spares.refraction] at taken
  have selfSameNow := selfSame
  rw [Signature.ofRule_congr spares.agree] at selfSameNow
  have onceBefore : Run.AtMostOnce rule (fired ++ []) (session.store identity)
      (session.engine.historyOf identity) := by
    rw [List.append_nil]
    exact spares.once
  obtain ⟨once, agree⟩ := taken.atMostOnce session.engine.base.nodup_bySalience
    (perm.mem_iff.2 spares.registered)
    (fun other member => notAssigned other (perm.mem_iff.1 member)) selfSameNow onceBefore
  refine ⟨spares.refraction, spares.registered, ?_, ?_⟩
  · rw [Session.store_setStore_self]
    exact fun name mentioned => (spares.agree name mentioned).trans (agree name mentioned)
  · rw [Session.store_setStore_self]
    show Run.AtMostOnce rule _ _ ((session.engine.ranOn identity _).historyOf identity)
    rw [Engine.historyOf_ranOn]
    exact once

/-- A change that leaves the rule, its last attempt and the facts of its condition as they are. -/
theorem Spares.congr (spares : Spares identity rule start fired session)
    (sameSettings : after.engine.settings = session.engine.settings)
    (registered : rule ∈ after.engine.base.rules)
    (agree : Store.AgreeOn rule.condition.references (session.store identity)
      (after.store identity))
    (sameHistory : (session.engine.historyOf identity).get? rule.name =
      (after.engine.historyOf identity).get? rule.name) :
    Spares identity rule start fired after := by
  refine ⟨?_, registered, ?_, spares.once.congr agree sameHistory⟩
  · rw [sameSettings]
    exact spares.refraction
  · exact fun name mentioned => (spares.agree name mentioned).trans (agree name mentioned)

theorem Spares.executeOther (different : other ≠ identity)
    (spares : Spares identity rule start fired session)
    (executed : session.execute other = .ok (after, report)) :
    Spares identity rule start fired after := by
  obtain ⟨_, rfl, rfl⟩ := Session.execute_eq_ok executed
  refine spares.congr rfl spares.registered ?_ ?_
  · rw [Session.store_setStore_of_ne _ _ different]
    exact fun _ _ => rfl
  · show _ = ((session.engine.ranOn other _).historyOf identity).get? rule.name
    rw [Engine.historyOf_ranOn_of_ne different.symm]

theorem Spares.change {store : Store} (spares : Spares identity rule start fired session)
    (agree : Store.AgreeOn rule.condition.references (session.store identity) store) :
    Spares identity rule start fired (session.setStore identity store) := by
  refine spares.congr rfl spares.registered ?_ rfl
  rw [Session.store_setStore_self]
  exact agree

theorem Spares.changeOther (different : other ≠ identity) (store : Store)
    (spares : Spares identity rule start fired session) :
    Spares identity rule start fired (session.setStore other store) := by
  refine spares.congr rfl spares.registered ?_ rfl
  rw [Session.store_setStore_of_ne _ _ different]
  exact fun _ _ => rfl

theorem Spares.renewOther (different : other ≠ identity) (store : Store)
    (spares : Spares identity rule start fired session) :
    Spares identity rule start fired (session.renewStore other store) := by
  have sameHistory := session.engine.historyOf_forgetStore_of_ne different.symm
  exact (spares.changeOther different store).congr rfl spares.registered (fun _ _ => rfl)
    (congrArg (Table.get? · rule.name) sameHistory.symm)

theorem Spares.add {added : Rule} {engine : Engine} (different : rule.name ≠ added.name)
    (spares : Spares identity rule start fired session)
    (isAdded : session.engine.addRule added = .ok engine) :
    Spares identity rule start fired { session with engine := engine } := by
  obtain ⟨_, _, _, base, inBase, rfl⟩ := Engine.addRule_eq_ok isAdded
  refine spares.congr rfl (mem_rules_of_mem_add? inBase spares.registered different)
    (fun _ _ => rfl) ?_
  rw [historyOf_forgetRule_get?, if_neg different]
  rfl

theorem Spares.remove {name : String} {engine : Engine} {removed? : Option Rule}
    (different : rule.name ≠ name) (spares : Spares identity rule start fired session)
    (removed : session.engine.removeRule name = .ok (engine, removed?)) :
    Spares identity rule start fired { session with engine := engine } := by
  obtain ⟨_, _, rfl⟩ := Engine.removeRule_eq_ok removed
  have kept : rule ∈ (session.engine.base.erase name).rules :=
    List.mem_filter.2 ⟨spares.registered, bne_iff_ne.2 different⟩
  refine spares.congr rfl kept (fun _ _ => rfl) ?_
  rw [historyOf_forgetRule_get?, if_neg different]
  rfl

/-- The invariant holds along every undisturbed course of a session. -/
theorem Undisturbed.spares
    (selfSame : (Signature.ofRule rule (start.store identity)).IsSelfSame)
    (refraction : start.engine.settings.refraction = true)
    (registered : rule ∈ start.engine.base.rules)
    (undisturbed : Undisturbed identity rule start fired session) :
    Spares identity rule start fired session := by
  induction undisturbed with
  | start =>
      have notFired : Run.AtMostOnce rule [] (start.store identity)
          (start.engine.historyOf identity) :=
        ⟨Nat.zero_le 1, fun member => absurd member List.not_mem_nil⟩
      exact ⟨refraction, registered, fun _ _ => rfl, notFired⟩
  | execute _ notAssigned executed spares =>
      exact spares.execute selfSame notAssigned executed
  | executeOther _ different executed spares => exact spares.executeOther different executed
  | change store _ agree spares => exact spares.change agree
  | changeOther store _ different spares => exact spares.changeOther different store
  | renewOther store _ different spares => exact spares.renewOther different store
  | add _ different isAdded spares => exact spares.add different isAdded
  | remove _ different removed spares => exact spares.remove different removed

/-- With refraction, a rule fires at most once in all runs on a store between which it is not
disturbed, if none of the facts that its condition mentions contains what is not a number. -/
theorem Undisturbed.count_fired_le_one
    (undisturbed : Undisturbed identity rule start fired session)
    (refraction : start.engine.settings.refraction = true)
    (registered : rule ∈ start.engine.base.rules)
    (wellFormed : (start.store identity).WellFormed)
    (noNaN : ∀ name ∈ rule.condition.references, ∀ value,
      (start.store identity).get? name = some value → ¬ value.ContainsNaN) :
    fired.count rule.name ≤ 1 := by
  have selfSame := Signature.isSelfSame_ofRule wellFormed noNaN
  exact (undisturbed.spares selfSame refraction registered).once.count

/-- A rule that holds as long as a fact is not the number one, and writes another fact. -/
private def watcher : Rule :=
  .undescribed "Watch" 0 (.binary .notEqual (.fact "x") (.number 1))
    [.assign (.fact "y") (.number 1)]

private def watching : Engine :=
  { Engine.new ⟨2, .reject, true, by decide⟩ with base := ⟨.reject, [watcher], by decide⟩ }

def watched (value : Value) : Store :=
  (∅ : Store).set "x" value

theorem eq_of_get?_watched {value found : Value} {name : String}
    (isFact : (watched value).get? name = some found) : found = value := by
  change Entries.get? name [("x", value)] = some found at isFact
  rw [Entries.get?] at isFact
  split at isFact
  · exact (Option.some.inj isFact).symm
  · cases isFact

theorem wellFormed_watched {value : Value} (wellFormed : value.WellFormed) :
    (watched value).WellFormed := by
  intro name found isFact
  rw [eq_of_get?_watched isFact]
  exact wellFormed

theorem not_mem_assigned_watching :
    ∀ other ∈ watching.base.rules, ∀ name ∈ watcher.condition.references,
      name ∉ other.assigned := by
  intro other member
  rw [List.mem_singleton.1 member]
  decide +kernel

theorem count_fired_le_one_watching :
    ∃ fired last,
      Undisturbed "facts" watcher ⟨watching, (∅ : Table Store).set "facts" (watched (.bool true))⟩
          fired last ∧
        fired = ["Watch"] ∧ fired.count "Watch" ≤ 1 := by
  let start : Session := ⟨watching, (∅ : Table Store).set "facts" (watched (.bool true))⟩
  have executed : ∃ after report, start.execute "facts" = .ok (after, report) := by
    rw [Session.execute, Engine.execute_of_idle rfl]
    exact ⟨_, _, rfl⟩
  obtain ⟨last, report, isRun⟩ := executed
  have undisturbed : Undisturbed "facts" watcher start ([] ++ report.fired) last :=
    Undisturbed.start.execute not_mem_assigned_watching isRun
  have noNaN : ∀ name ∈ watcher.condition.references, ∀ value,
      (start.store "facts").get? name = some value → ¬ value.ContainsNaN := by
    intro name _ value isFact contains
    rw [eq_of_get?_watched isFact] at contains
    cases contains
  have once := undisturbed.count_fired_le_one rfl List.mem_cons_self
    (wellFormed_watched (.bool true)) noNaN
  obtain ⟨_, _, rfl⟩ := Session.execute_eq_ok isRun
  exact ⟨_, last, undisturbed, by decide +kernel, once⟩

/-- A rule fires again and again while its condition mentions what is not a number, in a single run
and without a change to this fact. -/
theorem not_at_most_once :
    ¬ ∀ (engine after : Engine) (identity : String) (store storeAfter : Store) (report : Report),
      engine.settings.refraction = true →
        (∀ rule ∈ engine.base.rules, ∀ target value, .assign target value ∈ rule.actions →
          target.isPath = true) →
        store.WellFormed → engine.execute identity store = .ok (after, storeAfter, report) →
          ∀ rule ∈ engine.base.rules,
            (∀ other ∈ engine.base.rules, ∀ name ∈ rule.condition.references,
              name ∉ other.assigned) →
            report.fired.count rule.name ≤ 1 := by
  intro atMostOnce
  let notANumber : Value := .number (Float.ofBits 0x7FF8000000000000)
  have paths : ∀ rule ∈ watching.base.rules, ∀ target value, .assign target value ∈ rule.actions →
      target.isPath = true := by
    intro rule member target value isAction
    rw [List.mem_singleton.1 member] at isAction
    cases List.mem_singleton.1 isAction
    rfl
  have once := atMostOnce watching _ "facts" (watched notANumber) _ _ rfl paths
    (wellFormed_watched (.number _)) (Engine.execute_of_idle rfl) watcher List.mem_cons_self
    not_mem_assigned_watching
  have firedTwice : (watching.runOn "facts" (watched notANumber)).run.fired =
      ["Watch", "Watch"] := by decide +kernel
  rw [Report.ofFinished, firedTwice] at once
  exact absurd once (by decide)

end Sessions

end Rulebook
