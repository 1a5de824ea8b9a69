import Rulebook.Engine.Run
import Rulebook.Proofs.Expr.Dependence
import Rulebook.Proofs.Expr.Preservation
import Rulebook.Proofs.Value.Equality

/-!
# Evaluation on equal facts

Evaluation on stores with equal facts. Facts that are equal may differ in the signs of zeros and in
the order of fields. No operator shows such a difference: an expression has the same fault on both
stores, or values that are equal again, or that are no numbers although they are of that kind.
-/

namespace Rulebook

/-- Whether two stores have equal facts under some names: absent from both, or equal in both. -/
def Store.EqualOn (names : List String) (store other : Store) : Prop :=
  ∀ name ∈ names, Signature.sameFact (store.get? name) (other.get? name) = true

namespace Expr

open Value (Matches)

variable {store other : Store} {left right otherLeft otherRight operand otherOperand : Value}

theorem EqualOn.child {e child : Expr} (equal : Store.EqualOn e.references store other)
    (part : child ∈ e.children) : Store.EqualOn child.references store other :=
  fun name member => equal name (mem_references_of_child part member)

/-! ## Operators -/

private theorem indexOf_eq_of_matches (matched : Matches operand otherOperand) :
    indexOf operand = indexOf otherOperand := by
  cases matched.matchCases with
  | number matchedNumbers =>
      rcases matchedNumbers.eq_or_whole with rfl | ⟨whole, otherWhole⟩
      · rfl
      · rw [indexOf, indexOf, whole, otherWhole]
  | _ => rfl

theorem boolOf_eq_of_matches (op : BinaryOp) (matched : Matches operand otherOperand) :
    boolOf op operand = boolOf op otherOperand := by
  cases matched.matchCases <;> rfl

private theorem applyUnary_alike (op : UnaryOp) (matched : Matches operand otherOperand) :
    Alike Matches (applyUnary op operand) (applyUnary op otherOperand) := by
  cases op with
  | not =>
      cases matched.matchCases with
      | bool holds => exact .ok (.equal (beq_self_eq_true _))
      | _ => exact .error _
  | negate =>
      cases matched.matchCases with
      | number matchedNumbers => exact .ok (Value.matches_number_iff.2 matchedNumbers.neg)
      | _ => exact .error _

private theorem calculate_alike (op : Arithmetic) {x y x' y' : Float} (left : Number.Matches x x')
    (right : Number.Matches y y') :
    Alike Number.Matches (calculate op x y) (calculate op x' y') := by
  cases op with
  | add => exact .ok (left.add right)
  | subtract => exact .ok (left.sub right)
  | multiply => exact .ok (left.mul right)
  | divide =>
      have sameCheck : (y == 0) = (y' == 0) := right.beq_eq (.refl 0)
      rw [calculate, calculate, ← sameCheck]
      cases isZero : y == 0 with
      | true => exact .error _
      | false => exact .ok (left.div right isZero)

private theorem compare_eq_of_matches (op : Comparison) {x y x' y' : Float} (left : Number.Matches x x')
    (right : Number.Matches y y') : compare op x y = compare op x' y' := by
  cases op with
  | less => exact decide_eq_decide.2 (left.lt_iff right)
  | lessEqual => exact decide_eq_decide.2 (left.le_iff right)
  | greater => exact decide_eq_decide.2 (right.lt_iff left)
  | greaterEqual => exact decide_eq_decide.2 (right.le_iff left)

theorem applyArithmetic_number (op : Arithmetic) (x y : Float) :
    applyArithmetic op (.number x) (.number y) = (calculate op x y).map .number := by
  cases op <;> rfl

private theorem applyArithmetic_alike (op : Arithmetic) (leftMatched : Matches left otherLeft)
    (rightMatched : Matches right otherRight) :
    Alike Matches (applyArithmetic op left right) (applyArithmetic op otherLeft otherRight) := by
  cases leftMatched.matchCases with
  | number leftNumbers =>
      cases rightMatched.matchCases with
      | number rightNumbers =>
          rw [applyArithmetic_number, applyArithmetic_number]
          exact (calculate_alike op leftNumbers rightNumbers).map fun _ _ =>
            Value.matches_number_iff.2
      | _ => cases op <;> exact .error _
  | string text =>
      cases rightMatched.matchCases with
      | string otherText =>
          cases op with
          | add => exact .ok (.equal (beq_self_eq_true _))
          | _ => exact .error _
      | _ => cases op <;> exact .error _
  | _ => cases rightMatched.matchCases <;> cases op <;> exact .error _

private theorem applyComparison_alike (op : Comparison) (leftMatched : Matches left otherLeft)
    (rightMatched : Matches right otherRight) :
    Alike Matches (applyComparison op left right) (applyComparison op otherLeft otherRight) := by
  cases leftMatched.matchCases with
  | number leftNumbers =>
      cases rightMatched.matchCases with
      | number rightNumbers =>
          rw [applyComparison, applyComparison, compare_eq_of_matches op leftNumbers rightNumbers]
          exact .ok (.equal (beq_self_eq_true _))
      | _ => exact .error _
  | _ => cases rightMatched.matchCases <;> exact .error _

/-! ## Expressions -/

theorem equality_alike (wellFormed : store.WellFormed) (wellFormedOther : other.WellFormed)
    {left right : Expr} (leftAlike : Alike Matches (left.eval store) (left.eval other))
    (rightAlike : Alike Matches (right.eval store) (right.eval other)) (answer : Bool → Bool) :
    Alike Matches
      (do
        let leftValue ← left.eval store
        let rightValue ← right.eval store
        return .bool (answer (leftValue.same rightValue)))
      (do
        let leftValue ← left.eval other
        let rightValue ← right.eval other
        return .bool (answer (leftValue.same rightValue))) := by
  apply leftAlike.results.bind
  rintro leftValue otherLeft ⟨isLeft, isOtherLeft, leftMatched⟩
  apply rightAlike.results.bind
  rintro rightValue otherRight ⟨isRight, isOtherRight, rightMatched⟩
  have sameAnswer : leftValue.same rightValue = otherLeft.same otherRight :=
    leftMatched.same_eq rightMatched (eval_wellFormed wellFormed isLeft)
      (eval_wellFormed wellFormed isRight) (eval_wellFormed wellFormedOther isOtherLeft)
      (eval_wellFormed wellFormedOther isOtherRight)
  rw [sameAnswer]
  exact .ok (.equal (beq_self_eq_true _))

/-- The second operand of a conjunction or disjunction, where the first left the result open. -/
theorem second_alike (op : BinaryOp) {second otherSecond : Except Fault Value}
    (alike : Alike Matches second otherSecond) :
    Alike Matches (do return Value.bool (← boolOf op (← second)))
      (do return Value.bool (← boolOf op (← otherSecond))) := by
  apply alike.bind
  intro value otherValue matched
  rw [boolOf_eq_of_matches op matched]
  apply Alike.bind_self
  intro holds
  exact .ok (.equal (beq_self_eq_true _))

section Parts

variable {base index left right operand : Expr}

private theorem fact_alike {name : String}
    (sameFact : Signature.sameFact (store.get? name) (other.get? name) = true) :
    Alike Matches ((fact name).eval store) ((fact name).eval other) := by
  rw [eval, eval]
  cases isFact : store.get? name <;> cases isOther : other.get? name <;>
    rw [isFact, isOther] at sameFact
  · exact .error _
  · cases sameFact
  · cases sameFact
  · exact .ok (.equal sameFact)

private theorem field_alike (wellFormed : store.WellFormed) (wellFormedOther : other.WellFormed)
    (baseAlike : Alike Matches (base.eval store) (base.eval other)) (name : String) :
    Alike Matches ((field base name).eval store) ((field base name).eval other) := by
  rw [eval, eval]
  apply baseAlike.results.bind
  rintro object otherObject ⟨isObject, isOther, matched⟩
  have wellFormedObject := eval_wellFormed wellFormed isObject
  have wellFormedOtherObject := eval_wellFormed wellFormedOther isOther
  exact (matched.field wellFormedObject wellFormedOtherObject name).mapError _

private theorem element_alike (baseAlike : Alike Matches (base.eval store) (base.eval other))
    (indexAlike : Alike Matches (index.eval store) (index.eval other)) :
    Alike Matches ((element base index).eval store) ((element base index).eval other) := by
  rw [eval, eval]
  apply baseAlike.bind
  intro array otherArray matched
  cases matched.matchCases with
  | array equalArrays =>
      apply indexAlike.bind
      intro indexValue otherIndex matchedIndex
      rw [indexOf_eq_of_matches matchedIndex]
      apply Alike.bind_self
      intro place
      exact (matched.element place).mapError _
  | _ => exact .error _

private theorem unary_alike (op : UnaryOp)
    (operandAlike : Alike Matches (operand.eval store) (operand.eval other)) :
    Alike Matches ((unary op operand).eval store) ((unary op operand).eval other) := by
  rw [eval, eval]
  apply operandAlike.bind
  intro value otherValue matched
  exact applyUnary_alike op matched

/-- Operators that look at both operands, whatever these are. -/
theorem operands_alike (leftAlike : Alike Matches (left.eval store) (left.eval other))
    (rightAlike : Alike Matches (right.eval store) (right.eval other))
    {apply_ : Value → Value → Except Fault Value}
    (applied : ∀ {leftValue otherLeft rightValue otherRight}, Matches leftValue otherLeft →
      Matches rightValue otherRight →
        Alike Matches (apply_ leftValue rightValue) (apply_ otherLeft otherRight)) :
    Alike Matches (left.eval store >>= fun leftValue => right.eval store >>= apply_ leftValue)
      (left.eval other >>= fun leftValue => right.eval other >>= apply_ leftValue) := by
  apply leftAlike.bind
  intro leftValue otherLeft leftMatched
  apply rightAlike.bind
  intro rightValue otherRight rightMatched
  exact applied leftMatched rightMatched

/-- Connectives, which look at the second operand where the first leaves the result open. -/
theorem connective_alike (op : BinaryOp)
    (leftAlike : Alike Matches (left.eval store) (left.eval other))
    {second otherSecond : Bool → Except Fault Value}
    (secondAlike : ∀ holds, Alike Matches (second holds) (otherSecond holds)) :
    Alike Matches
      (left.eval store >>= fun leftValue => boolOf op leftValue >>= second)
      (left.eval other >>= fun leftValue => boolOf op leftValue >>= otherSecond) := by
  apply leftAlike.bind
  intro leftValue otherLeft leftMatched
  rw [boolOf_eq_of_matches op leftMatched]
  exact Alike.bind_self _ secondAlike

private theorem binary_alike (wellFormed : store.WellFormed) (wellFormedOther : other.WellFormed)
    (op : BinaryOp) (leftAlike : Alike Matches (left.eval store) (left.eval other))
    (rightAlike : Alike Matches (right.eval store) (right.eval other)) :
    Alike Matches ((binary op left right).eval store) ((binary op left right).eval other) := by
  cases op with
  | arithmetic op => exact operands_alike leftAlike rightAlike (applyArithmetic_alike op)
  | comparison op => exact operands_alike leftAlike rightAlike (applyComparison_alike op)
  | equal => exact equality_alike wellFormed wellFormedOther leftAlike rightAlike id
  | notEqual => exact equality_alike wellFormed wellFormedOther leftAlike rightAlike not
  | and =>
      refine connective_alike .and leftAlike fun holds => ?_
      cases holds with
      | true => exact second_alike .and rightAlike
      | false => exact .ok (.equal rfl)
  | or =>
      refine connective_alike .or leftAlike fun holds => ?_
      cases holds with
      | true => exact .ok (.equal rfl)
      | false => exact second_alike .or rightAlike

end Parts

/-- On stores with equal facts an expression has the same fault, or values that match. -/
theorem eval_alike (wellFormed : store.WellFormed) (wellFormedOther : other.WellFormed) {e : Expr}
    (equal : Store.EqualOn e.references store other) :
    Alike Matches (e.eval store) (e.eval other) := by
  induction e with
  | number x => exact .ok (Value.matches_number_iff.2 (.refl x))
  | string text => exact .ok (.equal (beq_self_eq_true _))
  | bool holds => exact .ok (.equal (beq_self_eq_true _))
  | null => exact .ok (.equal rfl)
  | fact name => exact fact_alike (equal name (mem_references_iff.2 (mem_walk_self _)))
  | field base name inductionHypothesis =>
      have baseAlike := inductionHypothesis (EqualOn.child equal (by simp [children]))
      exact field_alike wellFormed wellFormedOther baseAlike name
  | element base index baseHypothesis indexHypothesis =>
      have baseAlike := baseHypothesis (EqualOn.child equal (by simp [children]))
      have indexAlike := indexHypothesis (EqualOn.child equal (by simp [children]))
      exact element_alike baseAlike indexAlike
  | binary op left right leftHypothesis rightHypothesis =>
      have leftAlike := leftHypothesis (EqualOn.child equal (by simp [children]))
      have rightAlike := rightHypothesis (EqualOn.child equal (by simp [children]))
      exact binary_alike wellFormed wellFormedOther op leftAlike rightAlike
  | unary op operand inductionHypothesis =>
      exact unary_alike op (inductionHypothesis (EqualOn.child equal (by simp [children])))
  | assign target value => exact .error _

/-- Conditions come out the same on stores with equal facts. -/
theorem evalCondition_eq (wellFormed : store.WellFormed) (wellFormedOther : other.WellFormed)
    {condition : Expr} (equal : Store.EqualOn condition.references store other) :
    condition.evalCondition store = condition.evalCondition other := by
  have alike := eval_alike wellFormed wellFormedOther equal
  rw [evalCondition, evalCondition]
  generalize condition.eval store = outcome at alike ⊢
  generalize condition.eval other = otherOutcome at alike ⊢
  cases alike with
  | error fault => rfl
  | ok matched => cases matched.matchCases <;> rfl

end Expr

end Rulebook
