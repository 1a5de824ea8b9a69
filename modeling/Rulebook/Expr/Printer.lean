import Rulebook.Expr.Basic
import Rulebook.Number.Display

/-!
# Texts of expressions

Expressions as text of the rule language. Parentheses stand only where the binding powers ask for
them: operators of one power group from the left, so a right operand of the same power has them.
-/

namespace Rulebook.Expr

def parenthesized (needed : Bool) (text : String) : String :=
  if needed then "(" ++ text ++ ")" else text

/-- The text of an expression that stands where operators below a binding power need parentheses.
A negative literal has them where an operator before one operand, or an accessor, would take its
sign apart. -/
def print (context : Nat) : Expr → String
  | number x =>
    parenthesized (decide (x < 0) && decide (UnaryOp.precedence ≤ context)) (Number.literal x)
  | string text => text.written
  | bool holds => if holds then "true" else "false"
  | null => "null"
  | fact name => name
  | field base name => print (UnaryOp.precedence + 1) base ++ "." ++ name
  | element base index => print (UnaryOp.precedence + 1) base ++ "[" ++ print 0 index ++ "]"
  | unary op operand =>
    parenthesized (decide (UnaryOp.precedence < context))
      (op.sign ++ print UnaryOp.precedence operand)
  | binary op left right =>
    parenthesized (decide (op.precedence < context))
      (print op.precedence left ++ " " ++ op.sign ++ " " ++ print (op.precedence + 1) right)
  | assign target value => print 0 target ++ " = " ++ print 0 value

def toText (e : Expr) : String :=
  e.print 0

end Rulebook.Expr
