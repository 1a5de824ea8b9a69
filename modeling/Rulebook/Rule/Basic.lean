import Rulebook.Expr.Printer

/-!
# Rules

Rules: a condition and the actions that are performed when it holds. Rules of greater salience take
their turn first.
-/

namespace Rulebook

open Text (Quotable)

/-- A rule. -/
structure Rule where
  name : String
  salience : Int
  condition : Expr
  actions : List Expr
  description : Option Quotable

namespace Rule

def undescribed (name : String) (salience : Int) (condition : Expr) (actions : List Expr) : Rule :=
  ⟨name, salience, condition, actions, none⟩

/-- Equality of lists of expressions, place by place. -/
def sameActions : List Expr → List Expr → Bool
  | [], [] => true
  | action :: actions, other :: others => action.same other && sameActions actions others
  | _, _ => false

/-- Structural equality of rules. -/
def same (rule other : Rule) : Bool :=
  rule.name == other.name && rule.salience == other.salience &&
    rule.condition.same other.condition && sameActions rule.actions other.actions &&
    rule.description == other.description

/-- A description in the text of a rule, if there is one. -/
def descriptionText : Option Quotable → String
  | some text => " " ++ text.written
  | none => ""

/-- A salience in the text of a rule. A salience of zero is left out, and one with too many digits
cannot be written. -/
def salienceText? (salience : Int) : Option String :=
  if salience = 0 then some "" else (Number.integerText? salience).map (" salience " ++ ·)

/-- The first line of a rule's text, up to its opening brace. -/
def header? (rule : Rule) : Option String :=
  (salienceText? rule.salience).map
    ("rule " ++ rule.name ++ descriptionText rule.description ++ ·)

/-- The lines of a rule's text, given the first. -/
def linesFrom (header : String) (rule : Rule) : List String :=
  [header ++ " \x7b", "    when", "        " ++ rule.condition.toText, "    then"] ++
    rule.actions.map (fun action => "        " ++ action.toText ++ ";") ++ ["\x7d"]

/-- The text of a rule in the rule language, if its salience can be written. -/
def toText? (rule : Rule) : Option String :=
  rule.header?.map fun header => "\n".intercalate (rule.linesFrom header)

end Rule

end Rulebook
