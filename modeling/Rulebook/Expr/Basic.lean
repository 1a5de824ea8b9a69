import Rulebook.Text.Quoted

/-!
# Expressions

Expressions of the rule language: conditions, and the actions that write facts.
-/

namespace Rulebook

open Text (Quotable)

/-- Arithmetic on numbers; `add` also joins strings. -/
inductive Arithmetic where
  | add
  | subtract
  | multiply
  | divide
deriving DecidableEq, Repr

/-- Comparison of numbers. -/
inductive Comparison where
  | less
  | lessEqual
  | greater
  | greaterEqual
deriving DecidableEq, Repr

/-- Operators between two operands. -/
inductive BinaryOp where
  | arithmetic (op : Arithmetic)
  | comparison (op : Comparison)
  | equal
  | notEqual
  | and
  | or
deriving DecidableEq, Repr

/-- Operators before one operand. -/
inductive UnaryOp where
  | not
  | negate
deriving DecidableEq, Repr

namespace BinaryOp

def sign : BinaryOp → String
  | arithmetic .add => "+"
  | arithmetic .subtract => "-"
  | arithmetic .multiply => "*"
  | arithmetic .divide => "/"
  | comparison .less => "<"
  | comparison .lessEqual => "<="
  | comparison .greater => ">"
  | comparison .greaterEqual => ">="
  | equal => "=="
  | notEqual => "!="
  | and => "&&"
  | or => "||"

def all : List BinaryOp :=
  [arithmetic .add, arithmetic .subtract, arithmetic .multiply, arithmetic .divide,
    comparison .less, comparison .lessEqual, comparison .greater, comparison .greaterEqual,
    equal, notEqual, and, or]

def ofSign? (sign : String) : Option BinaryOp :=
  all.find? fun op => op.sign == sign

theorem ofSign?_sign (op : BinaryOp) : ofSign? op.sign = some op := by
  rcases op with (_ | _ | _ | _) | (_ | _ | _ | _) | _ | _ | _ | _ <;> decide

/-- Binding power: the operands of an operator with a greater one are grouped first. -/
def precedence : BinaryOp → Nat
  | or => 1
  | and => 2
  | equal | notEqual => 3
  | comparison _ => 4
  | arithmetic .add | arithmetic .subtract => 5
  | arithmetic .multiply | arithmetic .divide => 6

end BinaryOp

def UnaryOp.sign : UnaryOp → String
  | not => "!"
  | negate => "-"

def UnaryOp.precedence : Nat := 7

/-- An expression. An assignment writes the value of its second part at the path that is its first
part; it has a meaning as an action only. -/
inductive Expr where
  | number (x : Float)
  | string (text : Quotable)
  | bool (holds : Bool)
  | null
  | fact (name : String)
  | field (base : Expr) (name : String)
  | element (base : Expr) (index : Expr)
  | binary (op : BinaryOp) (left right : Expr)
  | unary (op : UnaryOp) (operand : Expr)
  | assign (target value : Expr)
deriving Inhabited

namespace Expr

/-- The fact at the root of a path: the name of a fact, or a field or element of a path. -/
def root? : Expr → Option String
  | fact name => some name
  | field base _ => base.root?
  | element base _ => base.root?
  | _ => none

def isPath (e : Expr) : Bool :=
  e.root?.isSome

def notAPath : String :=
  "Expression is not a fact path"

/-- Structural equality. Number literals are equal when they are the same number, or compare as
equal, as a zero and the negative zero do. -/
def same : Expr → Expr → Bool
  | number x, number y => x == y || x.toBits == y.toBits
  | string s, string t => s.text == t.text
  | bool a, bool b => a == b
  | null, null => true
  | fact name, fact other => name == other
  | field base name, field other otherName => same base other && name == otherName
  | element base index, element other otherIndex => same base other && same index otherIndex
  | binary op left right, binary otherOp otherLeft otherRight =>
    op == otherOp && same left otherLeft && same right otherRight
  | unary op operand, unary otherOp otherOperand => op == otherOp && same operand otherOperand
  | assign target value, assign otherTarget otherValue =>
    same target otherTarget && same value otherValue
  | _, _ => false

end Expr

end Rulebook
