import Rulebook.Token.Scan

/-!
# Faults of syntax

Faults in the text of expressions and rules. A fault says what is wrong and where: at the token that
cannot stand where it stands, or at the end of the text.
-/

namespace Rulebook.Grammar

open Text (Position)

/-- What has to stand at a place; some texts name the rule. -/
inductive Expectation where
  | ruleKeyword
  | ruleName
  | opening (rule : String)
  | whenKeyword (rule : String)
  | thenKeyword (rule : String)
  | fieldName
  | indexEnd
  | parenthesisEnd
  | actionEnd
  | expression
  | salience
deriving DecidableEq, Repr

/-- The words for what has to stand at a place. -/
def Expectation.text : Expectation → String
  | ruleKeyword => "'rule' at start of rule"
  | ruleName => "identifier for rule name"
  | opening rule => "'\x7b' to open rule '" ++ rule ++ "'"
  | whenKeyword rule => "'when' in rule '" ++ rule ++ "'"
  | thenKeyword rule => "'then' after condition of rule '" ++ rule ++ "'"
  | fieldName => "identifier after '.'"
  | indexEnd => "']' to close index"
  | parenthesisEnd => "')' to close parenthesis"
  | actionEnd => "';' after action"
  | expression => "expression"
  | salience => "integer salience"

/-- What is wrong with a text. -/
inductive Cause where
  | lexical (fault : LexicalFault)
  | expected (what : Expectation) (found : Option Lexeme)
  | unclosedRule (rule : String)
  | noActions (rule : String)
  | afterRule (rule : String) (found : Lexeme)
  | afterExpression (found : Lexeme)
  | emptyExpression
  | assignmentInCondition
  | targetNoPath
  | tooManyDigits (count : Nat)
deriving DecidableEq

/-- The words for what is wrong with a text. -/
def Cause.text : Cause → String
  | lexical fault => fault.text
  | expected what found => "Expected " ++ what.text ++ ", found " ++ describeFound found
  | unclosedRule rule => "Expected '\x7d' to close rule '" ++ rule ++ "'"
  | noActions rule => "Rule '" ++ rule ++ "' needs at least one action"
  | afterRule rule found => "Unexpected " ++ found.describe ++ " after rule '" ++ rule ++ "'"
  | afterExpression found => "Unexpected " ++ found.describe
  | emptyExpression => "Empty expression"
  | assignmentInCondition => "Assignment is only allowed in a then clause"
  | targetNoPath => "Invalid assignment target"
  | tooManyDigits count =>
    "Exceeds the limit (" ++ toString Number.digitBound ++
      " digits) for integer string conversion: value has " ++ toString count ++
      " digits; use sys.set_int_max_str_digits() to increase the limit"

/-- Whether a text breaks the rules of the language. A number with too many digits breaks none: it
is the conversion to an integer that fails. -/
def Cause.isSyntax : Cause → Bool
  | tooManyDigits _ => false
  | _ => true

/-- What is wrong with a text, and where. -/
structure Fault where
  cause : Cause
  place : Position
deriving DecidableEq

namespace Fault

def code : String := "syntax_error"

def isSyntax (fault : Fault) : Bool :=
  fault.cause.isSyntax

theorem isSyntax_eq_false_iff {fault : Fault} :
    fault.isSyntax = false ↔ ∃ count place, fault = ⟨.tooManyDigits count, place⟩ := by
  obtain ⟨cause, place⟩ := fault
  cases cause <;> simp [isSyntax, Cause.isSyntax]

/-- The words for what is wrong, without the place. -/
def text (fault : Fault) : String :=
  fault.cause.text

/-- The words for what is wrong; a fault of syntax names the line and the column. -/
def message (fault : Fault) : String :=
  if fault.isSyntax then
    fault.text ++ " (line " ++ toString fault.place.line ++ ", column " ++
      toString fault.place.column ++ ")"
  else fault.text

def ofScan (fault : Scan.Fault) : Fault :=
  ⟨.lexical fault.cause, fault.place⟩

end Fault

/-- The place of the next token; behind the last one the place where the text ends. -/
def here (finish : Position) : List Token → Position
  | [] => finish
  | token :: _ => token.place

/-- The next token, if there is one. -/
def next? (tokens : List Token) : Option Lexeme :=
  tokens.head?.map Token.lexeme

/-- The fault at a place where something else has to stand. -/
def missing (finish : Position) (what : Expectation) (tokens : List Token) : Fault :=
  ⟨.expected what (next? tokens), here finish tokens⟩

/-- What was read from a list of tokens, and the tokens behind it: fewer than a bound. -/
structure Parsed (α : Type) (bound : Nat) where
  value : α
  rest : List Token
  fewer : rest.length < bound

def Parsed.closedBy {α : Type} {bound : Nat} (parsed : Parsed α bound) (finish : Position)
    (symbol : Symbol) (what : Expectation) : Except Fault (Parsed α bound) :=
  match parsed with
  | ⟨_, [], _⟩ => .error (missing finish what [])
  | ⟨value, token :: rest, fewer⟩ =>
    if token.lexeme = .symbol symbol then .ok ⟨value, rest, by grind⟩
    else .error (missing finish what (token :: rest))

end Rulebook.Grammar
