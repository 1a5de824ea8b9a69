import Rulebook.Expr.Action
import Rulebook.Proofs.Value.WellFormed

/-!
# Evaluation and well-formed values

Evaluation and actions keep to well-formed values: in a store of such values every expression has
one, and every action leads to a store of such values.
-/

namespace Rulebook.Expr

variable {store : Store}

/-! ## Operators -/

private theorem applyUnary_wellFormed {op : UnaryOp} {operand value : Value}
    (applied : applyUnary op operand = .ok value) : value.WellFormed := by
  cases op with
  | not =>
      cases operand with
      | bool holds =>
          cases applied
          exact .bool _
      | _ => cases applied
  | negate =>
      cases operand with
      | number x =>
          cases applied
          exact .number _
      | _ => cases applied

private theorem applyComparison_wellFormed {op : Comparison} {left right value : Value}
    (applied : applyComparison op left right = .ok value) : value.WellFormed := by
  rw [applyComparison.eq_def] at applied
  split at applied
  · cases applied
    exact .bool _
  · cases applied

private theorem applyArithmetic_wellFormed {op : Arithmetic} {left right value : Value}
    (applied : applyArithmetic op left right = .ok value) : value.WellFormed := by
  rw [applyArithmetic.eq_def] at applied
  split at applied
  · cases applied
    exact .string _
  · obtain ⟨result, _, rfl⟩ := exists_of_map_eq_ok applied
    exact .number result
  · cases applied

theorem evalSecond_wellFormed {op : BinaryOp} {right : Expr} {value : Value}
    (evaluated : (do return Value.bool (← boolOf op (← right.eval store))) = .ok value) :
    value.WellFormed := by
  obtain ⟨_, _, evaluated⟩ := bind_eq_ok_iff.1 evaluated
  obtain ⟨holds, _, evaluated⟩ := bind_eq_ok_iff.1 evaluated
  cases evaluated
  exact .bool holds

/-! ## Expressions -/

section Parts

variable {base index left right : Expr} {value : Value}

private theorem fact_wellFormed (wellFormed : store.WellFormed) {name : String}
    (evaluated : (fact name).eval store = .ok value) : value.WellFormed := by
  rw [eval] at evaluated
  split at evaluated
  · next isFact =>
      cases evaluated
      exact wellFormed name _ isFact
  · cases evaluated

private theorem element_wellFormed
    (ofBase : ∀ {array}, base.eval store = .ok array → array.WellFormed)
    (evaluated : (element base index).eval store = .ok value) : value.WellFormed := by
  obtain ⟨array, isArray, evaluated⟩ := bind_eq_ok_iff.1 evaluated
  cases array with
  | array items =>
      obtain ⟨_, _, evaluated⟩ := bind_eq_ok_iff.1 evaluated
      obtain ⟨place, _, evaluated⟩ := bind_eq_ok_iff.1 evaluated
      exact (ofBase isArray).element (eq_ok_of_mapError evaluated)
  | _ => cases evaluated

/-- The value of an operator is well-formed whatever those of its operands are. -/
theorem binary_wellFormed {op : BinaryOp}
    (evaluated : (binary op left right).eval store = .ok value) : value.WellFormed := by
  cases op with
  | arithmetic op =>
      obtain ⟨_, _, evaluated⟩ := bind_eq_ok_iff.1 evaluated
      obtain ⟨_, _, evaluated⟩ := bind_eq_ok_iff.1 evaluated
      exact applyArithmetic_wellFormed evaluated
  | comparison op =>
      obtain ⟨_, _, evaluated⟩ := bind_eq_ok_iff.1 evaluated
      obtain ⟨_, _, evaluated⟩ := bind_eq_ok_iff.1 evaluated
      exact applyComparison_wellFormed evaluated
  | equal | notEqual =>
      obtain ⟨_, _, evaluated⟩ := bind_eq_ok_iff.1 evaluated
      obtain ⟨_, _, evaluated⟩ := bind_eq_ok_iff.1 evaluated
      cases evaluated
      exact .bool _
  | and =>
      obtain ⟨_, _, evaluated⟩ := bind_eq_ok_iff.1 evaluated
      obtain ⟨leftHolds, _, evaluated⟩ := bind_eq_ok_iff.1 evaluated
      cases leftHolds with
      | true => exact evalSecond_wellFormed evaluated
      | false =>
          cases evaluated
          exact .bool false
  | or =>
      obtain ⟨_, _, evaluated⟩ := bind_eq_ok_iff.1 evaluated
      obtain ⟨leftHolds, _, evaluated⟩ := bind_eq_ok_iff.1 evaluated
      cases leftHolds with
      | true =>
          cases evaluated
          exact .bool true
      | false => exact evalSecond_wellFormed evaluated

end Parts

/-- In a store of well-formed values every expression has a well-formed value. -/
theorem eval_wellFormed (wellFormed : store.WellFormed) {e : Expr} {value : Value}
    (evaluated : e.eval store = .ok value) : value.WellFormed := by
  induction e generalizing value with
  | number x =>
      cases evaluated
      exact .number x
  | string text =>
      cases evaluated
      exact .string _
  | bool holds =>
      cases evaluated
      exact .bool holds
  | null =>
      cases evaluated
      exact .null
  | fact name => exact fact_wellFormed wellFormed evaluated
  | field base name inductionHypothesis =>
      obtain ⟨object, isObject, evaluated⟩ := bind_eq_ok_iff.1 evaluated
      exact (inductionHypothesis isObject).field (eq_ok_of_mapError evaluated)
  | element base index inductionHypothesis _ =>
      exact element_wellFormed inductionHypothesis evaluated
  | binary op left right => exact binary_wellFormed evaluated
  | unary op operand _ =>
      obtain ⟨_, _, evaluated⟩ := bind_eq_ok_iff.1 evaluated
      exact applyUnary_wellFormed evaluated
  | assign target value => cases evaluated

/-! ## Actions -/

private theorem writeAt_wellFormed {root : String} {steps : List Step} {value : Value} {after : Store}
    (wellFormed : store.WellFormed) (wellFormedValue : value.WellFormed)
    (written : writeAt store root steps value = .ok after) : after.WellFormed := by
  rw [writeAt.eq_def] at written
  split at written
  · cases written
    exact wellFormed.set wellFormedValue
  · split at written
    · cases written
    · next old isFact =>
        obtain ⟨new, isNew, written⟩ := bind_eq_ok_iff.1 written
        cases written
        have wellFormedNew : new.WellFormed :=
          (wellFormed root old isFact).write wellFormedValue (eq_ok_of_mapError isNew)
        exact wellFormed.set wellFormedNew

theorem perform_wellFormed {action : Expr} {after : Store} {written? : Option String}
    (wellFormed : store.WellFormed) (performed : action.perform store = .ok (after, written?)) :
    after.WellFormed := by
  cases action with
  | assign target value =>
      obtain ⟨written, isValue, performed⟩ := bind_eq_ok_iff.1 performed
      obtain ⟨⟨root, steps⟩, _, performed⟩ := bind_eq_ok_iff.1 performed
      obtain ⟨updated, isUpdated, performed⟩ := bind_eq_ok_iff.1 performed
      cases performed
      have wellFormedWritten : written.WellFormed := eval_wellFormed wellFormed isValue
      exact writeAt_wellFormed wellFormed wellFormedWritten isUpdated
  | _ =>
      obtain ⟨_, _, performed⟩ := bind_eq_ok_iff.1 performed
      cases performed
      exact wellFormed

end Rulebook.Expr
