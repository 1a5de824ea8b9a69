import Rulebook.Expr.Basic
import Rulebook.Plain.Conversion

/-!
# Expressions as plain data

Expressions as plain data. A literal is the datum itself, but for texts, which are marked so that
no operator is taken for one; every other expression is a mapping with one entry, from the sign or
name of what is applied to its arguments.
-/

namespace Rulebook

open Text (Quotable)

namespace Expr

def unaryKey : UnaryOp → String
  | .not => "!"
  | .negate => "neg"

/-- A mapping with one entry. -/
def applied (key : String) (argument : Plain) : Plain :=
  .mapping [(.text key, argument)]

def toLogic : Expr → Plain
  | number x => .real x
  | bool holds => .bool holds
  | null => .none
  | string text => applied "str" (.text text.text)
  | fact name => applied "var" (.text name)
  | field base name => applied "field" (.list [base.toLogic, .text name])
  | element base index => applied "index" (.list [base.toLogic, index.toLogic])
  | binary op left right => applied op.sign (.list [left.toLogic, right.toLogic])
  | unary op operand => applied (unaryKey op) operand.toLogic
  | assign target value => applied "set" (.list [target.toLogic, value.toLogic])

/-- Why a datum is no expression. -/
inductive LogicFault where
  | invalid (datum : Plain)
  | unknownOperator (name : String)
  | notTwoArguments (op : BinaryOp)
  | endsInBackslash (text : String)
  | stringNotText
  | nameNotText
  | argumentMissing
  | argumentsKeyed
  | argumentsNotListed
  | outOfRange

def LogicFault.message? : LogicFault → Option String
  | invalid datum => some ("Invalid logic expression: " ++ datum.shown)
  | unknownOperator name => some ("Unknown operator: " ++ name)
  | notTwoArguments op => some ("Operator " ++ op.sign ++ " requires 2 arguments")
  | endsInBackslash text => some ("GRL strings cannot end with a backslash: " ++ Text.shown text)
  | stringNotText | nameNotText | argumentMissing | argumentsKeyed | argumentsNotListed
  | outOfRange => none

def quotable (text : String) : Except LogicFault Quotable :=
  match Quotable.of? text with
  | some quotable => .ok quotable
  | none => .error (.endsInBackslash text)

/-- A datum, or a fault where there is none. -/
def found (fault : LogicFault) : Option Plain → Except LogicFault Plain
  | some datum => .ok datum
  | none => .error fault

theorem found_eq_ok_iff {fault : LogicFault} {datum? : Option Plain} {datum : Plain} :
    found fault datum? = .ok datum ↔ datum? = some datum := by
  cases datum? <;> simp [found]

/-- The argument at a place, counted from zero. Arguments are taken from all that can be indexed: the
members of lists, tuples, texts and bytes, and what a mapping has under an integer. -/
def argument (place : Nat) : Plain → Except LogicFault Plain
  | .mapping entries => found .argumentsKeyed (Plain.findKey? (.integer place) entries)
  | .foreign (.set _) => .error .argumentsNotListed
  | arguments =>
    match arguments.members with
    | .ok items => found .argumentMissing items[place]?
    | .error _ => .error .argumentsNotListed

def nameArgument (place : Nat) (arguments : Plain) : Except LogicFault String :=
  match argument place arguments with
  | .ok (.text name) => .ok name
  | .ok _ => .error .nameNotText
  | .error fault => .error fault

def ofInteger (n : Int) : Except LogicFault Expr :=
  match Number.ofInt? n with
  | some x => .ok (number x)
  | none => .error .outOfRange

mutual

def ofLogic : Plain → Except LogicFault Expr
  | .bool holds => .ok (bool holds)
  | .none => .ok null
  | .integer n => ofInteger n
  | .real x => .ok (number x)
  | .mapping [(.text key, argument)] =>
    match key with
    | "str" =>
      match argument with
      | .text text => (quotable text).map string
      | _ => .error .stringNotText
    | "var" =>
      match argument with
      | .text name => .ok (fact name)
      | _ => .error .nameNotText
    | "field" => do
      let base ← ofArgument 0 argument
      let name ← nameArgument 1 argument
      .ok (field base name)
    | "index" => do
      let base ← ofArgument 0 argument
      let index ← ofArgument 1 argument
      .ok (element base index)
    | "!" => (ofLogic argument).map (unary .not)
    | "neg" => (ofLogic argument).map (unary .negate)
    | "set" => do
      let target ← ofArgument 0 argument
      let value ← ofArgument 1 argument
      .ok (assign target value)
    | sign =>
      match BinaryOp.ofSign? sign with
      | none => .error (.unknownOperator sign)
      | some op =>
        match argument with
        | .list [left, right] => do
          let leftExpr ← ofLogic left
          let rightExpr ← ofLogic right
          .ok (binary op leftExpr rightExpr)
        | _ => .error (.notTwoArguments op)
  | .mapping [(key, _)] => .error (.unknownOperator key.shown)
  | datum => .error (.invalid datum)

/-- Reads the argument at a place. Of what is no list, tuple or mapping, only bytes have arguments
that are expressions. -/
def ofArgument (place : Nat) : Plain → Except LogicFault Expr
  | .list items => ofItem place items
  | .tuple items => ofItem place items
  | .mapping entries => ofEntry place entries
  | arguments =>
    match argument place arguments with
    | .ok (.integer n) => ofInteger n
    | .ok datum => .error (.invalid datum)
    | .error fault => .error fault

def ofItem : Nat → List Plain → Except LogicFault Expr
  | _, [] => .error .argumentMissing
  | 0, item :: _ => ofLogic item
  | place + 1, _ :: items => ofItem place items

/-- Reads what stands under an integer. -/
def ofEntry (place : Nat) : List (Plain × Plain) → Except LogicFault Expr
  | [] => .error .argumentsKeyed
  | (key, datum) :: entries =>
    if Plain.sameKey key (.integer place) then ofLogic datum else ofEntry place entries

end

end Expr

end Rulebook
