import Rulebook.Proofs.Engine.Log

/-!
# Several fact stores

Several fact stores on one engine. An engine keeps the attempts on each store apart, and nothing else
that it keeps depends on facts. Who sees only what happens on one store can therefore not tell
whether there are others: sessions that are alike on a store stay alike under every operation on this
store or on the rules, and operations on other stores leave a session as it was on this one.
-/

namespace Rulebook

/-- Something that is done with an engine or one of its stores. -/
inductive Operation where
  | add (rule : Rule)
  | remove (name : String)
  | reset
  | execute (identity : String)
  | write (identity : String) (change : Store → Store)
  | renew (identity : String) (store : Store)

/-- Whether an operation is not on a store of another identity. -/
def Operation.concerns (identity : String) : Operation → Bool
  | add _ | remove _ | reset => true
  | execute other | write other _ | renew other _ => other == identity

/-- What an operation answers. -/
inductive Answer where
  | done
  | removed (rule? : Option Rule)
  | reported (report : Report)
  | refused (fault : Engine.Fault)

namespace Session

/-- What becomes of a session and what is answered: nothing is changed when something is refused. -/
def settle (session : Session) (outcome : Except Engine.Fault (Session × Answer)) :
    Session × Answer :=
  match outcome with
  | .ok settled => settled
  | .error fault => (session, .refused fault)

def perform (session : Session) : Operation → Session × Answer
  | .add rule =>
    session.settle <| (session.engine.addRule rule).map fun engine =>
      ({ session with engine := engine }, .done)
  | .remove name =>
    session.settle <| (session.engine.removeRule name).map fun (engine, rule?) =>
      ({ session with engine := engine }, .removed rule?)
  | .reset =>
    session.settle <| session.engine.reset.map fun engine =>
      ({ session with engine := engine }, .done)
  | .execute identity =>
    session.settle <| (session.execute identity).map fun (after, report) =>
      (after, .reported report)
  | .write identity change =>
    (session.setStore identity (change (session.store identity)), .done)
  | .renew identity store => (session.renewStore identity store, .done)

/-- Performs operations one after another. -/
def performAll (session : Session) (operations : List Operation) : Session :=
  operations.foldl (fun reached operation => (reached.perform operation).1) session

/-- What is seen on a store while operations are performed one after another: the answer to each one
that is not on another store, and the facts behind it. -/
def observe (identity : String) (session : Session) : List Operation → List (Answer × Store)
  | [] => []
  | operation :: operations =>
    let (after, answer) := session.perform operation
    if operation.concerns identity then
      (answer, after.store identity) :: observe identity after operations
    else observe identity after operations

theorem observe_cons_of_concerns {identity : String} {operation : Operation}
    (concerns : operation.concerns identity = true) (session : Session)
    (operations : List Operation) :
    observe identity session (operation :: operations) =
      ((session.perform operation).2, (session.perform operation).1.store identity) ::
        observe identity (session.perform operation).1 operations :=
  if_pos concerns

private theorem observe_cons_of_not_concerns {identity : String} {operation : Operation}
    (unconcerned : ¬ operation.concerns identity = true) (session : Session)
    (operations : List Operation) :
    observe identity session (operation :: operations) =
      observe identity (session.perform operation).1 operations :=
  if_neg unconcerned

/-! ## Sessions that are alike on a store -/

/-- `LikeOn identity first second` means that two sessions differ in nothing that matters to a
store: neither in the rules, nor in the attempts on the store, nor in its facts. -/
structure LikeOn (identity : String) (first second : Session) : Prop where
  settings : first.engine.settings = second.engine.settings
  base : first.engine.base = second.engine.base
  running : first.engine.phase.isRunning = second.engine.phase.isRunning
  history : first.engine.historyOf identity = second.engine.historyOf identity
  store : first.store identity = second.store identity

/-- Whether two sessions are alike on a store and the same was answered in both. -/
def AnsweredAlike (identity : String) (first second : Session × Answer) : Prop :=
  LikeOn identity first.1 second.1 ∧ first.2 = second.2

variable {identity other : String} {session first second third : Session}

theorem LikeOn.refl (identity : String) (session : Session) : LikeOn identity session session :=
  ⟨rfl, rfl, rfl, rfl, rfl⟩

theorem LikeOn.trans (like : LikeOn identity first second) (next : LikeOn identity second third) :
    LikeOn identity first third :=
  ⟨like.settings.trans next.settings, like.base.trans next.base, like.running.trans next.running,
    like.history.trans next.history, like.store.trans next.store⟩

/-! ## Operations on the store or on the rules -/

theorem LikeOn.setStore (like : LikeOn identity first second) (store : Store) :
    LikeOn identity (first.setStore identity store) (second.setStore identity store) := by
  refine ⟨like.settings, like.base, like.running, like.history, ?_⟩
  rw [store_setStore_self, store_setStore_self]

theorem LikeOn.forgetRule (like : LikeOn identity first second) (base : RuleBase) (name : String) :
    LikeOn identity
      { first with engine := ({ first.engine with base := base } : Engine).forgetRule name }
      { second with engine := ({ second.engine with base := base } : Engine).forgetRule name } := by
  refine ⟨like.settings, rfl, like.running, ?_, like.store⟩
  have same := congrArg (Table.erase · name) like.history
  rw [Engine.historyOf_forgetRule, Engine.historyOf_forgetRule]
  exact same

/-- An engine that is running refuses the same in both sessions. -/
theorem LikeOn.whenIdle {α : Type} (like : LikeOn identity first second)
    (activity : Activity) {result otherResult : Except Engine.Fault α}
    {settled otherSettled : α → Session × Answer}
    (alike : AnsweredAlike identity (first.settle (result.map settled))
      (second.settle (otherResult.map otherSettled))) :
    AnsweredAlike identity
      (first.settle ((first.engine.whenIdle activity result).map settled))
      (second.settle ((second.engine.whenIdle activity otherResult).map otherSettled)) := by
  rw [Engine.whenIdle, Engine.whenIdle, like.running]
  split
  · exact ⟨like, rfl⟩
  · exact alike

theorem LikeOn.add (like : LikeOn identity first second) (rule : Rule) :
    AnsweredAlike identity (first.perform (.add rule)) (second.perform (.add rule)) := by
  apply like.whenIdle
  rw [Engine.addIdle, Engine.addIdle, like.base]
  split
  · exact ⟨like, rfl⟩
  · split
    · exact ⟨like, rfl⟩
    · split
      · exact ⟨like, rfl⟩
      · exact ⟨like.forgetRule _ _, rfl⟩

theorem LikeOn.remove (like : LikeOn identity first second) (name : String) :
    AnsweredAlike identity (first.perform (.remove name)) (second.perform (.remove name)) := by
  apply like.whenIdle
  rw [like.base]
  exact ⟨like.forgetRule _ _, rfl⟩

theorem LikeOn.reset (like : LikeOn identity first second) :
    AnsweredAlike identity (first.perform .reset) (second.perform .reset) := by
  apply like.whenIdle
  exact ⟨⟨like.settings, like.base, rfl, rfl, like.store⟩, rfl⟩

theorem perform_execute_of_running (running : session.engine.phase.isRunning = true) :
    session.perform (.execute identity) = (session, .refused (.busy .execute)) := by
  rw [perform, execute, Engine.execute, Engine.whenIdle, running]
  rfl

theorem perform_execute_of_idle (idle : session.engine.phase.isRunning = false) :
    session.perform (.execute identity) =
      (({ session with
          engine := session.engine.ranOn identity (session.store identity) } : Session).setStore
        identity (session.engine.runOn identity (session.store identity)).run.store,
      .reported (.ofFinished (session.engine.runOn identity (session.store identity)))) := by
  rw [perform, execute, Engine.execute_of_idle idle]
  rfl

theorem LikeOn.runOn (like : LikeOn identity first second) :
    first.engine.runOn identity (first.store identity) =
      second.engine.runOn identity (second.store identity) := by
  rw [Engine.runOn, like.settings, like.base, like.history, like.store, Engine.runOn]

/-- An execution on a store answers alike where sessions are alike on that store. -/
theorem LikeOn.execute (like : LikeOn identity first second) :
    AnsweredAlike identity (first.perform (.execute identity))
      (second.perform (.execute identity)) := by
  cases running : second.engine.phase.isRunning with
  | true =>
      rw [perform_execute_of_running running,
        perform_execute_of_running (like.running.trans running)]
      exact ⟨like, rfl⟩
  | false =>
      have ran : LikeOn identity
          { first with engine := first.engine.ranOn identity (first.store identity) }
          { second with engine := second.engine.ranOn identity (second.store identity) } := by
        refine ⟨like.settings, like.base, rfl, ?_, like.store⟩
        rw [Engine.historyOf_ranOn, Engine.historyOf_ranOn, like.runOn]
      rw [perform_execute_of_idle running, perform_execute_of_idle (like.running.trans running),
        like.runOn]
      exact ⟨ran.setStore _, rfl⟩

theorem LikeOn.write (like : LikeOn identity first second) (change : Store → Store) :
    AnsweredAlike identity (first.perform (.write identity change))
      (second.perform (.write identity change)) := by
  rw [perform, perform, like.store]
  exact ⟨like.setStore _, rfl⟩

theorem LikeOn.renew (like : LikeOn identity first second) (store : Store) :
    AnsweredAlike identity (first.perform (.renew identity store))
      (second.perform (.renew identity store)) := by
  refine ⟨⟨like.settings, like.base, like.running, ?_, (like.setStore store).store⟩, rfl⟩
  show (first.engine.forgetStore identity).historyOf identity =
    (second.engine.forgetStore identity).historyOf identity
  rw [Engine.historyOf_forgetStore, Engine.historyOf_forgetStore]

theorem LikeOn.perform {operation : Operation} (like : LikeOn identity first second)
    (concerns : operation.concerns identity = true) :
    AnsweredAlike identity (first.perform operation) (second.perform operation) := by
  cases operation with
  | add rule => exact like.add rule
  | remove name => exact like.remove name
  | reset => exact like.reset
  | execute other =>
      obtain rfl := beq_iff_eq.1 concerns
      exact like.execute
  | write other change =>
      obtain rfl := beq_iff_eq.1 concerns
      exact like.write change
  | renew other store =>
      obtain rfl := beq_iff_eq.1 concerns
      exact like.renew store

/-! ## Operations on other stores -/

theorem likeOn_setStore_of_ne (different : other ≠ identity) (session : Session) (store : Store) :
    LikeOn identity session (session.setStore other store) :=
  ⟨rfl, rfl, rfl, rfl, (store_setStore_of_ne session store different).symm⟩

private theorem likeOn_execute_of_ne (different : other ≠ identity) (session : Session) :
    LikeOn identity session (session.perform (.execute other)).1 := by
  cases running : session.engine.phase.isRunning with
  | true =>
      rw [perform_execute_of_running running]
      exact LikeOn.refl identity session
  | false =>
      have ran : LikeOn identity session
          { session with engine := session.engine.ranOn other (session.store other) } :=
        ⟨rfl, rfl, running, (Engine.historyOf_ranOn_of_ne different.symm).symm, rfl⟩
      rw [perform_execute_of_idle running]
      exact ran.trans (likeOn_setStore_of_ne different _ _)

private theorem likeOn_renew_of_ne (different : other ≠ identity) (session : Session) (store : Store) :
    LikeOn identity session (session.renewStore other store) :=
  ⟨rfl, rfl, rfl, (session.engine.historyOf_forgetStore_of_ne different.symm).symm,
    (store_setStore_of_ne session store different).symm⟩

/-- What does not concern a store leaves the session as it is for that store. -/
theorem likeOn_perform_of_not_concerns {operation : Operation}
    (unconcerned : ¬ operation.concerns identity = true) (session : Session) :
    LikeOn identity session (session.perform operation).1 := by
  cases operation with
  | add | remove | reset => exact absurd rfl unconcerned
  | execute other =>
      have different : other ≠ identity := fun same => unconcerned (beq_iff_eq.2 same)
      exact likeOn_execute_of_ne different session
  | write other change =>
      have different : other ≠ identity := fun same => unconcerned (beq_iff_eq.2 same)
      exact likeOn_setStore_of_ne different session _
  | renew other store =>
      have different : other ≠ identity := fun same => unconcerned (beq_iff_eq.2 same)
      exact likeOn_renew_of_ne different session store

/-! ## Sequences of operations -/

theorem LikeOn.performAll (like : LikeOn identity first second) (operations : List Operation) :
    LikeOn identity (first.performAll (operations.filter (Operation.concerns identity)))
      (second.performAll operations) := by
  induction operations generalizing first second with
  | nil => exact like
  | cons operation operations inductionHypothesis =>
      by_cases concerns : operation.concerns identity = true
      · rw [List.filter_cons_of_pos concerns]
        exact inductionHypothesis (like.perform concerns).1
      · rw [List.filter_cons_of_neg concerns]
        exact inductionHypothesis (like.trans (likeOn_perform_of_not_concerns concerns second))

theorem LikeOn.observe (like : LikeOn identity first second) (operations : List Operation) :
    Session.observe identity first (operations.filter (Operation.concerns identity)) =
      Session.observe identity second operations := by
  induction operations generalizing first second with
  | nil => rfl
  | cons operation operations inductionHypothesis =>
      by_cases concerns : operation.concerns identity = true
      · obtain ⟨likeAfter, sameAnswer⟩ := like.perform concerns
        rw [List.filter_cons_of_pos concerns, observe_cons_of_concerns concerns,
          observe_cons_of_concerns concerns, sameAnswer, likeAfter.store,
          inductionHypothesis likeAfter]
      · have likeAfter := like.trans (likeOn_perform_of_not_concerns concerns second)
        rw [List.filter_cons_of_neg concerns, observe_cons_of_not_concerns concerns,
          inductionHypothesis likeAfter]

/-- Without the operations on other stores, the same is answered to all others, and after each
operation there are the same facts. -/
theorem observe_filter_concerns (identity : String) (session : Session)
    (operations : List Operation) :
    observe identity session (operations.filter (Operation.concerns identity)) =
        observe identity session operations ∧
      ∀ n, (session.performAll ((operations.take n).filter (Operation.concerns identity))).store
          identity =
        (session.performAll (operations.take n)).store identity := by
  have like := LikeOn.refl identity session
  exact ⟨like.observe operations, fun n => (like.performAll (operations.take n)).store⟩

end Session

end Rulebook
