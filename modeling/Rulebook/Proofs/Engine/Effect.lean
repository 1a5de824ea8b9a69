import Rulebook.Proofs.Engine.Turn

/-!
# The effect of a turn

What the turn of a rule adds to a run. It depends on the facts that the rule mentions and on the
rule's own last attempt, not on what was reported before or on the number of the pass; and it
changes no facts but those that the rule assigns.
-/

namespace Rulebook

/-! ## Facts that a rule mentions and assigns -/

/-- The facts that a rule mentions in its condition or its actions, targets and indices included. -/
def Rule.mentioned (rule : Rule) : List String :=
  rule.condition.references ++ rule.actions.flatMap Expr.references

/-- The facts that the actions of a rule assign, in whole or in part. -/
def Rule.assigned (rule : Rule) : List String :=
  rule.actions.filterMap fun action =>
    match action with
    | .assign target _ => target.root?
    | _ => none

variable {rule : Rule} {store other : Store}

/-- A rule assigns a fact if it is the root of the target of one of its actions. -/
theorem Rule.mem_assigned_iff {name : String} :
    name ∈ rule.assigned ↔
      ∃ target value, .assign target value ∈ rule.actions ∧ target.root? = some name := by
  rw [Rule.assigned, List.mem_filterMap]
  constructor
  · rintro ⟨action, member, isRoot⟩
    cases action with
    | assign target value => exact ⟨target, value, member, isRoot⟩
    | _ => cases isRoot
  · rintro ⟨target, value, member, isRoot⟩
    exact ⟨_, member, isRoot⟩

theorem Rule.mem_mentioned_of_mem_assigned {name : String} (assigned : name ∈ rule.assigned) :
    name ∈ rule.mentioned := by
  obtain ⟨target, value, member, isRoot⟩ := Rule.mem_assigned_iff.1 assigned
  have inTarget : name ∈ target.references := Expr.mem_references_of_root? isRoot
  have inAction : name ∈ (Expr.assign target value).references :=
    Expr.mem_references_of_child (by simp [Expr.children]) inTarget
  exact List.mem_append_right _ (List.mem_flatMap.2 ⟨_, member, inAction⟩)

private theorem agreeOn_condition (agree : Store.AgreeOn rule.mentioned store other) :
    Store.AgreeOn rule.condition.references store other :=
  agree.mono fun _ => List.mem_append_left _

/-- The signature of a rule depends only on the facts that its condition reads. -/
theorem Signature.ofRule_congr (agree : Store.AgreeOn rule.condition.references store other) :
    Signature.ofRule rule store = Signature.ofRule rule other := by
  refine List.map_congr_left fun name member => ?_
  rw [agree name member]

namespace Run

/-- Performing actions in stores that agree on all that they mention writes the same, ends with the
same fault and leads to stores that agree again. -/
theorem performAll_congr {names : List String} {actions : List Expr}
    (agree : Store.AgreeOn names store other)
    (mentioned : ∀ action ∈ actions, ∀ name ∈ action.references, name ∈ names) :
    (performAll store actions).written = (performAll other actions).written ∧
      (performAll store actions).fault? = (performAll other actions).fault? ∧
      Store.AgreeOn names (performAll store actions).store (performAll other actions).store := by
  induction actions generalizing store other with
  | nil => exact ⟨rfl, rfl, agree⟩
  | cons action actions inductionHypothesis =>
      have mentionedLater : ∀ action ∈ actions, ∀ name ∈ action.references, name ∈ names :=
        fun later member => mentioned later (List.mem_cons_of_mem action member)
      have alike := Expr.perform_congr agree (mentioned action List.mem_cons_self)
      rw [performAll, performAll]
      generalize action.perform store = performed at *
      generalize action.perform other = otherPerformed at *
      cases alike with
      | error fault => exact ⟨rfl, rfl, agree⟩
      | @ok result otherResult related =>
          obtain ⟨after, written?⟩ := result
          obtain ⟨otherAfter, otherWritten?⟩ := otherResult
          obtain ⟨agreeAfter, rfl⟩ := related
          obtain ⟨sameWritten, sameFault, agreeInTheEnd⟩ :=
            inductionHypothesis agreeAfter mentionedLater
          exact ⟨congrArg (written?.toList ++ ·) sameWritten, sameFault, agreeInTheEnd⟩

/-! ## Effects -/

/-- What the turn of a rule adds to a run: the facts afterwards, the signature that is recorded if
there is an attempt, whether the rule has fired, its failure and the facts that it has written. -/
structure Effect where
  store : Store
  recorded? : Option Signature
  hasFired : Bool
  failure? : Option (TurnPart × Expr.Fault)
  written : List String

namespace Effect

def idle (store : Store) : Effect :=
  ⟨store, none, false, none, []⟩

def changed (effect : Effect) : Bool :=
  effect.hasFired || !effect.written.isEmpty

def record (effect : Effect) (rule : Rule) (history : History) : History :=
  match effect.recorded? with
  | some signature => history.set rule.name signature
  | none => history

/-- The names that an effect of a rule adds to those of the rules that have fired. -/
def fired (effect : Effect) (rule : Rule) : List String :=
  if effect.hasFired then [rule.name] else []

def failures (effect : Effect) (pass : Nat) (rule : Rule) : List Failure :=
  effect.failure?.toList.map fun failure => ⟨rule.name, failure.1, pass, failure.2⟩

def addTo (effect : Effect) (pass : Nat) (rule : Rule) (run : Run) : Run :=
  ⟨effect.store, effect.record rule run.history, run.fired ++ effect.fired rule,
    run.failures ++ effect.failures pass rule, effect.written.foldl noteWrite run.modified⟩

end Effect

def attemptEffect (refraction : Bool) (rule : Rule) (store : Store) : Effect :=
  let performed := performAll store rule.actions
  ⟨performed.store, if refraction then some (Signature.ofRule rule store) else none,
    performed.fault?.isNone, performed.fault?.map fun fault => (.action, fault),
    performed.written⟩

/-- Whether the facts that a rule's condition mentions are as they were recorded at its last
attempt. -/
def isRepeated (rule : Rule) (store : Store) (last? : Option Signature) : Bool :=
  last?.any fun last => last.same (Signature.ofRule rule store)

/-- The effect of the turn of a rule, given the signature of its last attempt. -/
def effect (refraction : Bool) (rule : Rule) (store : Store) (last? : Option Signature) : Effect :=
  match rule.condition.evalCondition store with
  | .error fault => { Effect.idle store with failure? := some (.condition, fault) }
  | .ok (some true) =>
    if refraction && isRepeated rule store last? then .idle store
    else attemptEffect refraction rule store
  | .ok _ => .idle store

theorem effect_of_holds (refraction : Bool) (last? : Option Signature) (holds : rule.Holds store) :
    effect refraction rule store last? =
      if refraction && isRepeated rule store last? then .idle store
      else attemptEffect refraction rule store := by
  rw [effect, holds]

theorem effect_of_not_holds (refraction : Bool) (last? : Option Signature)
    (notHolding : ¬ rule.Holds store) :
    effect refraction rule store last? =
      { Effect.idle store with
        failure? := (fault? (rule.condition.evalCondition store)).map fun fault =>
          (.condition, fault) } := by
  rw [effect]
  cases evaluated : rule.condition.evalCondition store with
  | error fault => rfl
  | ok outcome =>
      rcases outcome with _ | _ | _
      · rfl
      · rfl
      · exact absurd evaluated notHolding

/-- The effect of a turn is that of an attempt, or nothing but the failure of a condition that
fails. -/
theorem effect_cases (refraction : Bool) (rule : Rule) (store : Store) (last? : Option Signature) :
    effect refraction rule store last? = attemptEffect refraction rule store ∨
      effect refraction rule store last? =
        { Effect.idle store with
          failure? := (fault? (rule.condition.evalCondition store)).map fun fault =>
            (.condition, fault) } := by
  by_cases holds : rule.Holds store
  · have noFault : fault? (rule.condition.evalCondition store) = none := by
      rw [holds]
      rfl
    rw [effect_of_holds _ _ holds, noFault]
    split
    · exact .inr rfl
    · exact .inl rfl
  · exact .inr (effect_of_not_holds _ _ holds)

theorem isSuppressed_eq (refraction : Bool) (history : History) :
    isSuppressed refraction rule (Signature.ofRule rule store) history =
      (refraction && isRepeated rule store (history.get? rule.name)) := by
  rw [isSuppressed, isRepeated]
  cases history.get? rule.name <;> rfl

/-- An attempt is its effect, added to the run. -/
theorem attempt_eq (refraction : Bool) (pass : Nat) (rule : Rule) (run : Run) :
    attempt refraction pass rule (Signature.ofRule rule run.store) run =
      ((attemptEffect refraction rule run.store).addTo pass rule run,
        (attemptEffect refraction rule run.store).changed) := by
  have sameHistory : recordAttempt refraction rule (Signature.ofRule rule run.store) run.history =
      (attemptEffect refraction rule run.store).record rule run.history := by
    cases refraction <;> rfl
  rw [attempt, sameHistory]
  cases failed : (performAll run.store rule.actions).fault? <;>
    simp [attemptEffect, Effect.addTo, Effect.changed, Effect.fired, Effect.failures, failed]

theorem idle_addTo (pass : Nat) (rule : Rule) (run : Run) :
    (Effect.idle run.store).addTo pass rule run = run := by
  simp [Effect.idle, Effect.addTo, Effect.record, Effect.fired, Effect.failures]

/-- The turn of a rule adds its effect to the run. -/
theorem takeTurn_eq (refraction : Bool) (pass : Nat) (rule : Rule) (run : Run) :
    takeTurn refraction pass rule run =
      ((effect refraction rule run.store (run.history.get? rule.name)).addTo pass rule run,
        (effect refraction rule run.store (run.history.get? rule.name)).changed) := by
  rw [takeTurn, effect, ← isSuppressed_eq]
  cases rule.condition.evalCondition run.store with
  | error fault =>
      simp [Effect.idle, Effect.addTo, Effect.changed, Effect.record, Effect.fired, Effect.failures]
  | ok outcome =>
      rcases outcome with _ | _ | _
      · exact congrArg (·, false) (idle_addTo pass rule run).symm
      · exact congrArg (·, false) (idle_addTo pass rule run).symm
      · simp only
        split
        · exact congrArg (·, false) (idle_addTo pass rule run).symm
        · exact attempt_eq refraction pass rule run

/-! ## What an effect depends on and what it changes -/

/-- Effects that differ only in facts outside of some names. -/
structure Effect.LikeOn (names : List String) (effect other : Effect) : Prop where
  store : Store.AgreeOn names effect.store other.store
  recorded : effect.recorded? = other.recorded?
  hasFired : effect.hasFired = other.hasFired
  failure : effect.failure? = other.failure?
  written : effect.written = other.written

theorem Effect.LikeOn.changed_eq {names : List String} {effect other : Effect}
    (like : LikeOn names effect other) : effect.changed = other.changed := by
  rw [changed, changed, like.hasFired, like.written]

theorem Effect.LikeOn.record_eq {names : List String} {effect other : Effect}
    (like : LikeOn names effect other) (rule : Rule) (history : History) :
    effect.record rule history = other.record rule history := by
  rw [record, record, like.recorded]

theorem Effect.LikeOn.fired_eq {names : List String} {effect other : Effect}
    (like : LikeOn names effect other) (rule : Rule) : effect.fired rule = other.fired rule := by
  rw [fired, fired, like.hasFired]

theorem Effect.LikeOn.failures_eq {names : List String} {effect other : Effect}
    (like : LikeOn names effect other) (pass : Nat) (rule : Rule) :
    effect.failures pass rule = other.failures pass rule := by
  rw [failures, failures, like.failure]

/-- The effect of a turn depends only on the facts that the rule mentions. Stores that agree on more
than these agree on as much afterwards. -/
theorem effect_congr (refraction : Bool) (last? : Option Signature) {names : List String}
    (agree : Store.AgreeOn names store other) (among : ∀ name ∈ rule.mentioned, name ∈ names) :
    Effect.LikeOn names (effect refraction rule store last?)
      (effect refraction rule other last?) := by
  have agreeCondition := agreeOn_condition (agree.mono among)
  have sameOutcome : rule.condition.evalCondition store = rule.condition.evalCondition other :=
    Expr.evalCondition_congr agreeCondition
  have sameSignature : Signature.ofRule rule store = Signature.ofRule rule other :=
    Signature.ofRule_congr agreeCondition
  by_cases holds : rule.Holds store
  · have holdsToo : rule.Holds other := sameOutcome.symm.trans holds
    rw [effect_of_holds _ _ holds, effect_of_holds _ _ holdsToo, isRepeated, isRepeated,
      sameSignature]
    split
    · exact ⟨agree, rfl, rfl, rfl, rfl⟩
    · have mentioned : ∀ action ∈ rule.actions, ∀ name ∈ action.references, name ∈ names :=
        fun action member name inAction =>
          among name (List.mem_append_right _ (List.mem_flatMap.2 ⟨action, member, inAction⟩))
      obtain ⟨sameWritten, sameFault, agreeAfter⟩ := performAll_congr agree mentioned
      refine ⟨agreeAfter, ?_, ?_, ?_, sameWritten⟩
      · simp only [attemptEffect, sameSignature]
      · simp only [attemptEffect, sameFault]
      · simp only [attemptEffect, sameFault]
  · have notHoldingToo : ¬ rule.Holds other := fun holdsToo => holds (sameOutcome.trans holdsToo)
    rw [effect_of_not_holds _ _ holds, effect_of_not_holds _ _ notHoldingToo, sameOutcome]
    exact ⟨agree, rfl, rfl, rfl, rfl⟩

/-- The turn of a rule changes no facts but those that the rule assigns. -/
theorem effect_store_of_not_mem (refraction : Bool) (last? : Option Signature) {name : String}
    (notAssigned : name ∉ rule.assigned) :
    (effect refraction rule store last?).store.get? name = store.get? name := by
  rcases effect_cases refraction rule store last? with attempted | unattempted
  · rw [attempted]
    apply performAll_of_not_mem
    intro target value member isRoot
    exact notAssigned (Rule.mem_assigned_iff.2 ⟨target, value, member, isRoot⟩)
  · rw [unattempted]
    rfl

/-- A turn leaves the facts alone that the rule does not assign. -/
theorem takeTurn_store_of_not_mem {refraction : Bool} {pass : Nat} {run : Run} {name : String}
    (notAssigned : name ∉ rule.assigned) :
    (takeTurn refraction pass rule run).1.store.get? name = run.store.get? name := by
  rw [takeTurn_eq]
  exact effect_store_of_not_mem refraction _ notAssigned

/-- Turns on the same facts lead to the same facts, whatever their order in the stores. -/
theorem effect_store_congr (refraction : Bool) (last? : Option Signature)
    (agree : ∀ name, store.get? name = other.get? name) (name : String) :
    (effect refraction rule store last?).store.get? name =
      (effect refraction rule other last?).store.get? name := by
  have agreeMore : Store.AgreeOn (name :: rule.mentioned) store other := fun name _ => agree name
  have like := effect_congr refraction last? agreeMore fun _ => List.mem_cons_of_mem name
  exact like.store name List.mem_cons_self

theorem record_get?_of_ne (effect : Effect) (history : History) {name : String}
    (different : name ≠ rule.name) :
    (effect.record rule history).get? name = history.get? name := by
  rw [Effect.record]
  cases effect.recorded? with
  | none => rfl
  | some signature => exact Table.get?_set_of_ne history signature different

theorem record_get?_self (effect : Effect) (history : History) :
    (effect.record rule history).get? rule.name =
      effect.recorded?.or (history.get? rule.name) := by
  rw [Effect.record]
  cases effect.recorded? with
  | none => rfl
  | some signature => exact Table.get?_set_self history rule.name signature

/-- Where the same is recorded, attempts that were the same before are the same afterwards. -/
theorem record_get?_congr {effect otherEffect : Effect} {history otherHistory : History}
    {name : String} (rule : Rule) (sameRecord : effect.recorded? = otherEffect.recorded?)
    (same : history.get? name = otherHistory.get? name) :
    (effect.record rule history).get? name = (otherEffect.record rule otherHistory).get? name := by
  by_cases isRule : name = rule.name
  · subst isRule
    rw [record_get?_self, record_get?_self, sameRecord, same]
  · rw [record_get?_of_ne _ _ isRule, record_get?_of_ne _ _ isRule, same]

/-- Noting writes adds exactly the facts that were written. -/
theorem mem_foldl_noteWrite {written modified : List String} {name : String} :
    name ∈ written.foldl noteWrite modified ↔ name ∈ modified ∨ name ∈ written := by
  induction written generalizing modified with
  | nil => simp
  | cons first written inductionHypothesis =>
      have noted : name ∈ noteWrite modified first ↔ name ∈ modified ∨ name = first := by
        rw [noteWrite]
        split
        · next known =>
            have isKnown : first ∈ modified := List.contains_iff_mem.1 known
            constructor
            · exact .inl
            · rintro (member | rfl)
              · exact member
              · exact isKnown
        · simp
      rw [List.foldl_cons, inductionHypothesis, noted, List.mem_cons, or_assoc]

end Run

end Rulebook
