import Rulebook.Expr.Action
import Rulebook.Proofs.Computation
import Rulebook.Proofs.Expr.Walk

/-!
# Faults of evaluation

Faults that evaluation and actions cannot end with. The evaluation of an expression without
assignments never ends with the complaint that one stands in the place of a value, whatever the
facts are and whichever operands are evaluated; and an assignment to a path never lacks a target.
-/

namespace Rulebook.Expr

/-- Whether a fault is one of an assignment: of the place where it stands, or of its target. -/
def Fault.isOfAssignment : Fault → Bool
  | assignmentAsValue _ | notATarget _ => true
  | _ => false

/-- Faults of assignments are those of a class of their own. -/
theorem Fault.code_eq_iff {fault : Fault} :
    fault.code = "invalid_assignment" ↔ fault.isOfAssignment = true := by
  cases fault with
  | part fault => cases fault <;> simp [code, Value.Fault.code, isOfAssignment]
  | _ => simp [code, isOfAssignment]

/-- Whether a computation cannot end with a fault of an assignment. -/
abbrev AssignsRightly {α : Type} (computed : Except Fault α) : Prop :=
  EndsOnlyWith (fun fault => fault.isOfAssignment = false) computed

variable {store : Store} {e target action : Expr}

/-! ## Operators -/

theorem assignsRightly_indexOf (value : Value) : AssignsRightly (indexOf value) := by
  rw [indexOf.eq_def]
  split
  · split
    · exact .ok _
    · exact .error rfl
  · exact .error rfl

theorem assignsRightly_boolOf (op : BinaryOp) (value : Value) :
    AssignsRightly (boolOf op value) := by
  rw [boolOf.eq_def]
  split
  · exact .ok _
  · exact .error rfl

private theorem assignsRightly_calculate (op : Arithmetic) (x y : Float) :
    AssignsRightly (calculate op x y) := by
  cases op with
  | divide =>
      rw [calculate]
      split
      · exact .error rfl
      · exact .ok _
  | _ => exact .ok _

private theorem assignsRightly_applyUnary (op : UnaryOp) (value : Value) :
    AssignsRightly (applyUnary op value) := by
  rw [applyUnary.eq_def]
  split
  · exact .ok _
  · exact .error rfl
  · exact .ok _
  · exact .error rfl

private theorem assignsRightly_applyArithmetic (op : Arithmetic) (left right : Value) :
    AssignsRightly (applyArithmetic op left right) := by
  rw [applyArithmetic.eq_def]
  split
  · exact .ok _
  · exact (assignsRightly_calculate _ _ _).map _
  · exact .error rfl

private theorem assignsRightly_applyComparison (op : Comparison) (left right : Value) :
    AssignsRightly (applyComparison op left right) := by
  rw [applyComparison.eq_def]
  split
  · exact .ok _
  · exact .error rfl

/-! ## Expressions -/

/-- Without an assignment in it, an expression never fails by one. -/
theorem assignsRightly_eval (free : e.hasAssignment = false) : AssignsRightly (e.eval store) := by
  induction e with
  | number x | string text | bool holds | null => exact .ok _
  | fact name =>
      rw [eval]
      split
      · exact .ok _
      · exact .error rfl
  | field base name inductionHypothesis =>
      have object := inductionHypothesis (hasAssignment_of_child free (by simp [children]))
      exact object.bind fun _ => .mapError _ fun _ => rfl
  | element base index baseHypothesis indexHypothesis =>
      have array := baseHypothesis (hasAssignment_of_child free (by simp [children]))
      have place := indexHypothesis (hasAssignment_of_child free (by simp [children]))
      refine array.bind fun value => ?_
      split
      · refine place.bind fun index => ?_
        exact (assignsRightly_indexOf index).bind fun _ => .mapError _ fun _ => rfl
      · exact .error rfl
  | binary op left right leftHypothesis rightHypothesis =>
      have leftValue := leftHypothesis (hasAssignment_of_child free (by simp [children]))
      have rightValue := rightHypothesis (hasAssignment_of_child free (by simp [children]))
      have lastOperand (op : BinaryOp) :
          AssignsRightly (do return Value.bool (← boolOf op (← right.eval store))) :=
        rightValue.bind fun value => (assignsRightly_boolOf op value).bind fun _ => .ok _
      cases op with
      | arithmetic op =>
          exact leftValue.bind fun _ => rightValue.bind fun _ =>
            assignsRightly_applyArithmetic op _ _
      | comparison op =>
          exact leftValue.bind fun _ => rightValue.bind fun _ =>
            assignsRightly_applyComparison op _ _
      | equal | notEqual => exact leftValue.bind fun _ => rightValue.bind fun _ => .ok _
      | and =>
          refine leftValue.bind fun value => (assignsRightly_boolOf .and value).bind fun holds => ?_
          -- the right operand is evaluated only where the left one holds
          cases holds with
          | true => exact lastOperand .and
          | false => exact .ok _
      | or =>
          refine leftValue.bind fun value => (assignsRightly_boolOf .or value).bind fun holds => ?_
          cases holds with
          | true => exact .ok _
          | false => exact lastOperand .or
  | unary op operand inductionHypothesis =>
      have value := inductionHypothesis (hasAssignment_of_child free (by simp [children]))
      exact value.bind (assignsRightly_applyUnary op)
  | assign target value =>
      rw [hasAssignment_assign] at free
      cases free

theorem assignsRightly_evalCondition (free : e.hasAssignment = false) :
    AssignsRightly (e.evalCondition store) := by
  refine (assignsRightly_eval free).bind fun value => ?_
  split
  · exact .ok _
  · exact .ok _

/-! ## Actions -/

private theorem assignsRightly_locateBefore {steps : List Step} (path : e.isPath = true)
    (free : e.hasAssignment = false) : AssignsRightly (locateBefore store target e steps) := by
  induction e generalizing steps with
  | fact name => exact .ok _
  | field base name inductionHypothesis =>
      exact inductionHypothesis path (hasAssignment_of_child free (by simp [children]))
  | element base index baseHypothesis _ =>
      have freeBase : base.hasAssignment = false :=
        hasAssignment_of_child free (by simp [children])
      have freeIndex : index.hasAssignment = false :=
        hasAssignment_of_child free (by simp [children])
      refine (assignsRightly_eval freeIndex).bind fun value => ?_
      exact (assignsRightly_indexOf value).bind fun _ => baseHypothesis path freeBase
  | _ => cases path

private theorem assignsRightly_writeAt (root : String) (steps : List Step) (value : Value) :
    AssignsRightly (writeAt store root steps value) := by
  rw [writeAt.eq_def]
  split
  · exact .ok _
  · split
    · exact .error rfl
    · exact EndsOnlyWith.bind (.mapError _ fun _ => rfl) fun _ => .ok _

theorem assignsRightly_perform_assign {value : Expr} (path : target.isPath = true)
    (targetFree : target.hasAssignment = false) (valueFree : value.hasAssignment = false) :
    AssignsRightly ((assign target value).perform store) := by
  refine (assignsRightly_eval valueFree).bind fun written => ?_
  refine (assignsRightly_locateBefore path targetFree).bind fun place => ?_
  exact (assignsRightly_writeAt _ _ written).bind fun _ => .ok _

/-- Neither does an action that assigns nowhere. -/
theorem assignsRightly_perform (free : action.hasAssignment = false) :
    AssignsRightly (action.perform store) := by
  cases action with
  | assign target value =>
      rw [hasAssignment_assign] at free
      cases free
  | _ => exact (assignsRightly_eval free).bind fun _ => .ok _

end Rulebook.Expr
