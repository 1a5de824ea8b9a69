import Rulebook.Expr.Printer
import Rulebook.Store

/-!
# Evaluation

Values of expressions in a fact store. Evaluation reads facts and changes none; it ends at the
first fault, operands from left to right.
-/

namespace Rulebook

namespace Expr

/-- Why an expression has no value, or an action cannot be performed. -/
inductive Fault where
  | unknownFact (name : String)
  | part (fault : Value.Fault)
  | indexNotNumber (kind : Kind)
  | indexNotWhole (x : Float)
  | notOf (kind : Kind)
  | negativeOf (kind : Kind)
  | operandKinds (op : BinaryOp) (left right : Kind)
  | operandNotBool (op : BinaryOp) (kind : Kind)
  | divisionByZero
  | assignmentAsValue (assignment : Expr)
  | notATarget (target : Expr)

namespace Fault

def code : Fault → String
  | unknownFact _ => "unknown_variable"
  | part fault => fault.code
  | indexNotNumber _ | indexNotWhole _ | notOf _ | negativeOf _ | operandKinds .. |
    operandNotBool .. => "type_mismatch"
  | divisionByZero => "division_by_zero"
  | assignmentAsValue _ | notATarget _ => "invalid_assignment"

def message : Fault → String
  | unknownFact name => "Unknown variable: " ++ name
  | part fault => fault.message
  | indexNotNumber kind => "Array index must be a number, got " ++ kind.name
  | indexNotWhole x => "Array index must be an integer, got " ++ Number.text x
  | notOf kind => "Operator '!' requires bool, got " ++ kind.name
  | negativeOf kind => "Unary '-' requires number, got " ++ kind.name
  | operandKinds op left right =>
    "Operator '" ++ op.sign ++ "' not supported between " ++ left.name ++ " and " ++ right.name
  | operandNotBool op kind =>
    "Operator '" ++ op.sign ++ "' requires bool operands, got " ++ kind.name
  | divisionByZero => "Division by zero"
  | assignmentAsValue assignment =>
    "Assignment cannot be used as a value: " ++ assignment.toText
  | notATarget target => "Invalid assignment target: " ++ target.toText

end Fault

/-- A value as an index: a number without a fraction. -/
def indexOf (value : Value) : Except Fault Int :=
  match value with
  | .number x =>
    match Number.whole? x with
    | some index => .ok index
    | none => .error (.indexNotWhole x)
  | _ => .error (.indexNotNumber value.kind)

def boolOf (op : BinaryOp) (value : Value) : Except Fault Bool :=
  match value with
  | .bool holds => .ok holds
  | _ => .error (.operandNotBool op value.kind)

def compare (op : Comparison) (x y : Float) : Bool :=
  match op with
  | .less => decide (x < y)
  | .lessEqual => decide (x ≤ y)
  | .greater => decide (y < x)
  | .greaterEqual => decide (y ≤ x)

/-- The result of arithmetic on two numbers. Both zeros are no divisors. -/
def calculate (op : Arithmetic) (x y : Float) : Except Fault Float :=
  match op with
  | .add => .ok (x + y)
  | .subtract => .ok (x - y)
  | .multiply => .ok (x * y)
  | .divide => if y == 0 then .error .divisionByZero else .ok (x / y)

def applyUnary (op : UnaryOp) (value : Value) : Except Fault Value :=
  match op, value with
  | .not, .bool holds => .ok (.bool !holds)
  | .not, _ => .error (.notOf value.kind)
  | .negate, .number x => .ok (.number (-x))
  | .negate, _ => .error (.negativeOf value.kind)

/-- The result of arithmetic on two values: numbers, or strings that are joined. -/
def applyArithmetic (op : Arithmetic) (left right : Value) : Except Fault Value :=
  match op, left, right with
  | .add, .string s, .string t => .ok (.string (s ++ t))
  | op, .number x, .number y => (calculate op x y).map .number
  | op, left, right => .error (.operandKinds (.arithmetic op) left.kind right.kind)

/-- The result of a comparison of two values, which have to be numbers. -/
def applyComparison (op : Comparison) (left right : Value) : Except Fault Value :=
  match left, right with
  | .number x, .number y => .ok (.bool (compare op x y))
  | left, right => .error (.operandKinds (.comparison op) left.kind right.kind)

/-- The value of an expression. The right operand of a conjunction or disjunction is evaluated
only where the left one leaves the result open. -/
def eval (store : Store) : Expr → Except Fault Value
  | number x => .ok (.number x)
  | string text => .ok (.string text.text)
  | bool holds => .ok (.bool holds)
  | null => .ok .null
  | fact name =>
    match store.get? name with
    | some value => .ok value
    | none => .error (.unknownFact name)
  | field base name => do
    let object ← base.eval store
    (object.field name).mapError .part
  | element base index => do
    let array ← base.eval store
    match array with
    | .array _ => do
      let place ← indexOf (← index.eval store)
      (array.element place).mapError .part
    | _ => .error (.part (.noElementsIn array.kind))
  | unary op operand => do applyUnary op (← operand.eval store)
  | binary .and left right => do
    if ← boolOf .and (← left.eval store) then
      return .bool (← boolOf .and (← right.eval store))
    else return .bool false
  | binary .or left right => do
    if ← boolOf .or (← left.eval store) then return .bool true
    else return .bool (← boolOf .or (← right.eval store))
  | binary .equal left right => do
    let leftValue ← left.eval store
    let rightValue ← right.eval store
    return .bool (leftValue.same rightValue)
  | binary .notEqual left right => do
    let leftValue ← left.eval store
    let rightValue ← right.eval store
    return .bool !(leftValue.same rightValue)
  | binary (.comparison op) left right => do
    let leftValue ← left.eval store
    let rightValue ← right.eval store
    applyComparison op leftValue rightValue
  | binary (.arithmetic op) left right => do
    let leftValue ← left.eval store
    let rightValue ← right.eval store
    applyArithmetic op leftValue rightValue
  | assign target value => .error (.assignmentAsValue (assign target value))

/-- The outcome of a condition; none for a value that is neither true nor false. -/
def evalCondition (store : Store) (condition : Expr) : Except Fault (Option Bool) := do
  match ← condition.eval store with
  | .bool holds => return some holds
  | _ => return none

end Expr

end Rulebook
