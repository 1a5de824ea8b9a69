import Rulebook.Engine.Session
import Rulebook.Proofs.Engine.Execution

/-!
# Logs

Logs of what happens to an engine and its stores: rules that are added and removed, attempts that
are forgotten, runs turn by turn, and changes that a host makes to a store between them.
-/

namespace Rulebook

/-- Something that happens to an engine or one of its stores. -/
inductive Event where
  | added (rule : Rule)
  | removed (name : String)
  | reset
  | turn (identity : String) (taken : Turn)
  | changed (identity : String) (store : Store)

/-- `Logged settings log session` means that the events of the log, one after another, lead from a
new engine with these settings to the session. Only what an engine does not refuse is logged. -/
inductive Logged (settings : Settings) : List Event → Session → Prop
  | start (stores : Table Store) :
      Logged settings [] ⟨.new settings, stores⟩
  | add {log : List Event} {session : Session} {rule : Rule} {after : Engine} :
      Logged settings log session →
      session.engine.addRule rule = .ok after →
      Logged settings (log ++ [.added rule]) { session with engine := after }
  | remove {log : List Event} {session : Session} {name : String} {after : Engine}
      {removed? : Option Rule} :
      Logged settings log session →
      session.engine.removeRule name = .ok (after, removed?) →
      Logged settings (log ++ [.removed name]) { session with engine := after }
  | reset {log : List Event} {session : Session} {after : Engine} :
      Logged settings log session →
      session.engine.reset = .ok after →
      Logged settings (log ++ [.reset]) { session with engine := after }
  | execute {log : List Event} {session after : Session} {identity : String} {report : Report} :
      Logged settings log session →
      session.execute identity = .ok (after, report) →
      Logged settings
        (log ++ (session.engine.turnsOn identity (session.store identity)).map (.turn identity))
        after
  | change {log : List Event} {session : Session} (identity : String) (store : Store) :
      Logged settings log session →
      Logged settings (log ++ [.changed identity store]) (session.setStore identity store)

theorem Session.store_setStore_self (session : Session) (identity : String) (store : Store) :
    (session.setStore identity store).store identity = store := by
  rw [Session.store, Session.setStore, Table.get?_set_self, Option.getD_some]

theorem Session.store_setStore_of_ne (session : Session) {identity other : String} (store : Store)
    (different : other ≠ identity) :
    (session.setStore other store).store identity = session.store identity := by
  rw [Session.store, Session.setStore, Table.get?_set_of_ne _ _ different.symm, Session.store]

/-- What an execution in a session leaves behind. -/
theorem Session.execute_eq_ok {session after : Session} {identity : String} {report : Report}
    (executed : session.execute identity = .ok (after, report)) :
    session.engine.phase.isRunning = false ∧
      after =
        ({ session with
            engine := session.engine.ranOn identity (session.store identity) } : Session).setStore
          identity (session.engine.runOn identity (session.store identity)).run.store ∧
      report = .ofFinished (session.engine.runOn identity (session.store identity)) := by
  rw [Session.execute] at executed
  cases ran : session.engine.execute identity (session.store identity) with
  | error fault =>
      rw [ran] at executed
      cases executed
  | ok result =>
      obtain ⟨engine, store, reported⟩ := result
      obtain ⟨idle, rfl, rfl, rfl⟩ := Engine.execute_eq_ok_iff.1 ran
      rw [ran] at executed
      cases executed
      exact ⟨idle, rfl, rfl⟩

theorem Session.engine_of_execute {session after : Session} {identity : String} {report : Report}
    (executed : session.execute identity = .ok (after, report)) :
    after.engine = session.engine.ranOn identity (session.store identity) :=
  congrArg Session.engine (Session.execute_eq_ok executed).2.1

/-! ## Last attempts -/

/-- The facts at a rule's last attempt on a store, after an event, given those before it. An attempt
does not count any more when the rule is added anew or all attempts are forgotten. -/
def Event.lastAttempt? (identity name : String) (last? : Option Store) : Event → Option Store
  | added rule => if rule.name = name then none else last?
  | reset => none
  | turn other taken =>
    if other = identity ∧ taken.rule.name = name ∧ taken.attempted = true then some taken.store
    else last?
  | removed _ | changed _ _ => last?

/-- The facts at the last attempt of a rule on a store, since the rule was added and all attempts
were forgotten; none if there was no such attempt. -/
def lastAttempt? (identity name : String) (log : List Event) : Option Store :=
  log.foldl (Event.lastAttempt? identity name) none

theorem lastAttempt?_snoc (identity name : String) (log : List Event) (event : Event) :
    lastAttempt? identity name (log ++ [event]) =
      event.lastAttempt? identity name (lastAttempt? identity name log) := by
  rw [lastAttempt?, List.foldl_append]
  rfl

theorem lastAttempt?_added {rule : Rule} (identity name : String) (log : List Event) :
    lastAttempt? identity name (log ++ [.added rule]) =
      if rule.name = name then none else lastAttempt? identity name log :=
  lastAttempt?_snoc identity name log (.added rule)

private theorem lastAttempt?_turn_of_ne {identity other : String} (different : other ≠ identity)
    (name : String) (log : List Event) (turn : Turn) :
    lastAttempt? identity name (log ++ [.turn other turn]) = lastAttempt? identity name log := by
  rw [lastAttempt?_snoc, Event.lastAttempt?, if_neg fun matching => different matching.1]

/-- Turns on one store are no attempts on another. -/
theorem lastAttempt?_turns_of_ne {identity other : String} (different : other ≠ identity)
    (name : String) (log : List Event) (turns : List Turn) :
    lastAttempt? identity name (log ++ turns.map (.turn other)) =
      lastAttempt? identity name log := by
  induction turns generalizing log with
  | nil => rw [List.map_nil, List.append_nil]
  | cons turn turns inductionHypothesis =>
      rw [List.map_cons, List.append_cons, inductionHypothesis]
      exact lastAttempt?_turn_of_ne different name log turn

theorem lastAttempt?_attempted (identity : String) (log : List Event) {turn : Turn}
    (attempted : turn.attempted = true) :
    lastAttempt? identity turn.rule.name (log ++ [.turn identity turn]) = some turn.store := by
  rw [lastAttempt?_snoc, Event.lastAttempt?, if_pos ⟨rfl, rfl, attempted⟩]

theorem lastAttempt?_not_attempted (identity name : String) (log : List Event) {turn : Turn}
    (notAttempted : turn.attempted = false) :
    lastAttempt? identity name (log ++ [.turn identity turn]) = lastAttempt? identity name log := by
  rw [lastAttempt?_snoc, Event.lastAttempt?, if_neg]
  rintro ⟨_, _, attempted⟩
  exact Bool.false_ne_true (notAttempted.symm.trans attempted)

theorem lastAttempt?_turn_of_name_ne (identity : String) {name : String} (log : List Event)
    {turn : Turn} (different : turn.rule.name ≠ name) :
    lastAttempt? identity name (log ++ [.turn identity turn]) = lastAttempt? identity name log := by
  rw [lastAttempt?_snoc, Event.lastAttempt?, if_neg fun matching => different matching.2.1]

end Rulebook
