import Rulebook.Proofs.Engine.Effect
import Rulebook.Proofs.Engine.Rest

/-!
# Settled rules

Settled rules, which attempt nothing at their turns: the condition does not hold, or the facts that
it mentions are as they were at the last attempt. A rule is settled after its own turn if it assigns
none of these facts, and stays settled as long as nothing else does.
-/

namespace Rulebook

/-- Whether the facts of a signature are the same as themselves. -/
def Signature.IsSelfSame (signature : Signature) : Prop :=
  signature.same signature = true

/-- A signature without what is not a number is the same as itself. -/
theorem Signature.isSelfSame_ofRule {rule : Rule} {store : Store} (wellFormed : store.WellFormed)
    (noNaN : ∀ name ∈ rule.condition.references, ∀ value, store.get? name = some value →
      ¬ value.ContainsNaN) :
    (Signature.ofRule rule store).IsSelfSame := by
  refine (Signature.same_ofRule_iff rule store store).2 fun name mentioned => ?_
  cases isFact : store.get? name with
  | none => rfl
  | some value =>
      exact Value.same_self (wellFormed name value isFact) (noNaN name mentioned value isFact)

/-- Whether no fact that the condition mentions contains what is not a number at a turn. -/
def Turn.HasNoNaN (turn : Turn) : Prop :=
  ∀ name ∈ turn.rule.condition.references, ∀ value, turn.store.get? name = some value →
    ¬ value.ContainsNaN

theorem Turn.HasNoNaN.isSelfSame {turn : Turn} (noNaN : turn.HasNoNaN)
    (wellFormed : turn.store.WellFormed) :
    (Signature.ofRule turn.rule turn.store).IsSelfSame :=
  Signature.isSelfSame_ofRule wellFormed noNaN

namespace Run

variable {pass : Nat} {rule other : Rule} {run : Run}

/-- Whether a rule would attempt nothing at its turn: its condition does not hold, or it is passed
over because of its last attempt. -/
def Settled (store : Store) (history : History) (rule : Rule) : Prop :=
  ¬ rule.Holds store ∨ Suppressed true rule history store

theorem Settled.rests {store : Store} {history : History} (settled : Settled store history rule) :
    Rests true store history rule :=
  settled.elim .inl fun suppressed => .inr (.inl suppressed)

theorem Settled.congr {store after : Store} {history later : History}
    (agree : Store.AgreeOn rule.condition.references store after)
    (same : history.get? rule.name = later.get? rule.name)
    (settled : Settled store history rule) : Settled after later rule := by
  have sameSignature : Signature.ofRule rule store = Signature.ofRule rule after :=
    Signature.ofRule_congr agree
  rcases settled with notHolding | suppressed
  · refine .inl fun holds => notHolding ?_
    rw [Rule.Holds, Expr.evalCondition_congr agree]
    exact holds
  · refine .inr ?_
    rw [Suppressed, ← sameSignature]
    exact (suppressed_congr same).1 suppressed

/-- A settled rule does nothing in its turn. -/
theorem takeTurn_of_settled (pass : Nat) (settled : Settled run.store run.history rule) :
    (takeTurn true pass rule run).1.store = run.store ∧
      (takeTurn true pass rule run).1.history = run.history := by
  have possible := takeTurn_cases true pass rule run
  generalize takeTurn true pass rule run = result at *
  cases possible with
  | attempted holds notSuppressed =>
      rcases settled with notHolding | suppressed
      · exact absurd holds notHolding
      · exact absurd suppressed notSuppressed
  | _ => exact ⟨rfl, rfl⟩

theorem agreeOn_of_not_assigned
    (notAssigned : ∀ name ∈ other.condition.references, name ∉ rule.assigned) :
    Store.AgreeOn other.condition.references run.store (takeTurn true pass rule run).1.store :=
  fun name mentioned => (takeTurn_store_of_not_mem (notAssigned name mentioned)).symm

/-- A rule that assigns no fact that its own condition mentions is settled after its turn. -/
theorem settled_after_turn
    (notAssigned : ∀ name ∈ rule.condition.references, name ∉ rule.assigned)
    (selfSame : (Signature.ofRule rule run.store).IsSelfSame) :
    Settled (takeTurn true pass rule run).1.store (takeTurn true pass rule run).1.history rule := by
  by_cases settled : Settled run.store run.history rule
  · obtain ⟨sameStore, sameHistory⟩ := takeTurn_of_settled pass settled
    rw [sameStore, sameHistory]
    exact settled
  · obtain ⟨mayHold, notSuppressed⟩ := not_or.1 settled
    have holds : rule.Holds run.store := Classical.not_not.1 mayHold
    have agree : Store.AgreeOn rule.condition.references run.store
        (takeTurn true pass rule run).1.store := agreeOn_of_not_assigned notAssigned
    refine Settled.congr agree rfl (.inr ?_)
    rw [takeTurn_of_holds holds notSuppressed, attempt_history, Suppressed, isSuppressed,
      recordAttempt, if_pos rfl, Table.get?_set_self]
    exact selfSame

end Run

end Rulebook
