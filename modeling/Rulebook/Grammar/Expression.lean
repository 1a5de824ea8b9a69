import Rulebook.Grammar.Fault

/-!
# Reading expressions

Reading expressions from tokens. Operators of greater binding power are grouped first and those of
one power from the left; operators before one operand bind stronger than all between two, and the
accessors behind an expression stronger still.
-/

namespace Rulebook.Grammar

open Text (Position)

/-- The negation of an operand. That of a number literal is a literal itself. -/
def negation : Expr → Expr
  | .number x => .number (-x)
  | operand => .unary .negate operand

theorem negation_number (x : Float) : negation (.number x) = .number (-x) :=
  rfl

theorem negation_of_ne_number {operand : Expr} (noLiteral : ∀ x, operand ≠ .number x) :
    negation operand = .unary .negate operand := by
  cases operand with
  | number x => exact absurd rfl (noLiteral x)
  | _ => rfl

/-- The least binding power of an operator between two operands. -/
def leastPrecedence : Nat := 1

def operator? (token : Token) : Option BinaryOp :=
  match token.lexeme with
  | .symbol symbol => symbol.binary?
  | _ => none

mutual

/-- Reads an expression whose operators have at least a given binding power. -/
def expression (finish : Position) (least : Nat) (tokens : List Token) :
    Except Fault (Parsed Expr tokens.length) :=
  match operand finish tokens with
  | .error fault => .error fault
  | .ok ⟨left, rest, fewer⟩ =>
    match operators finish least left rest with
    | .error fault => .error fault
    | .ok ⟨whole, behind, fewerBehind⟩ => .ok ⟨whole, behind, by omega⟩
termination_by 4 * tokens.length + 3

/-- Reads the operators behind a left operand, each with its right operand, as long as they have
at least a given binding power. -/
def operators (finish : Position) (least : Nat) (left : Expr) (tokens : List Token) :
    Except Fault (Parsed Expr (tokens.length + 1)) :=
  match tokens with
  | [] => .ok ⟨left, [], Nat.zero_lt_one⟩
  | token :: rest =>
    match operator? token with
    | none => .ok ⟨left, token :: rest, Nat.lt_succ_self _⟩
    | some op =>
      if op.precedence < least then .ok ⟨left, token :: rest, Nat.lt_succ_self _⟩
      else
        match expression finish (op.precedence + 1) rest with
        | .error fault => .error fault
        | .ok ⟨right, behind, fewer⟩ =>
          match operators finish least (.binary op left right) behind with
          | .error fault => .error fault
          | .ok ⟨whole, last, fewerLast⟩ =>
            .ok ⟨whole, last, by simp only [List.length_cons]; omega⟩
termination_by 4 * tokens.length

def operand (finish : Position) (tokens : List Token) :
    Except Fault (Parsed Expr tokens.length) :=
  match tokens with
  | ⟨.symbol .not, _⟩ :: rest =>
    match operand finish rest with
    | .error fault => .error fault
    | .ok ⟨inner, behind, fewer⟩ =>
      .ok ⟨.unary .not inner, behind, by simp only [List.length_cons]; omega⟩
  | ⟨.symbol .minus, _⟩ :: rest =>
    match operand finish rest with
    | .error fault => .error fault
    | .ok ⟨inner, behind, fewer⟩ =>
      .ok ⟨negation inner, behind, by simp only [List.length_cons]; omega⟩
  | tokens =>
    match primary finish tokens with
    | .error fault => .error fault
    | .ok ⟨base, rest, fewer⟩ =>
      match accessors finish base rest with
      | .error fault => .error fault
      | .ok ⟨whole, behind, fewerBehind⟩ => .ok ⟨whole, behind, by omega⟩
termination_by 4 * tokens.length + 2

def accessors (finish : Position) (base : Expr) (tokens : List Token) :
    Except Fault (Parsed Expr (tokens.length + 1)) :=
  match tokens with
  | ⟨.symbol .dot, _⟩ :: ⟨.name name, _⟩ :: rest =>
    match accessors finish (.field base name) rest with
    | .error fault => .error fault
    | .ok ⟨whole, behind, fewer⟩ =>
      .ok ⟨whole, behind, by simp only [List.length_cons]; omega⟩
  | ⟨.symbol .dot, _⟩ :: rest => .error (missing finish .fieldName rest)
  | ⟨.symbol .openBracket, _⟩ :: rest =>
    match expression finish leastPrecedence rest with
    | .error fault => .error fault
    | .ok inner =>
      match inner.closedBy finish .closeBracket .indexEnd with
      | .error fault => .error fault
      | .ok ⟨index, behind, fewer⟩ =>
        match accessors finish (.element base index) behind with
        | .error fault => .error fault
        | .ok ⟨whole, last, fewerLast⟩ =>
          .ok ⟨whole, last, by simp only [List.length_cons]; omega⟩
  | tokens => .ok ⟨base, tokens, Nat.lt_succ_self _⟩
termination_by 4 * tokens.length
decreasing_by all_goals simp only [List.length_cons] at *; omega

/-- Reads a literal, the name of a fact, or an expression between parentheses. -/
def primary (finish : Position) (tokens : List Token) :
    Except Fault (Parsed Expr tokens.length) :=
  match tokens with
  | ⟨.number numeral, _⟩ :: rest => .ok ⟨.number numeral.toFloat, rest, Nat.lt_succ_self _⟩
  | ⟨.string text, _⟩ :: rest => .ok ⟨.string text, rest, Nat.lt_succ_self _⟩
  | ⟨.keyword .trueWord, _⟩ :: rest => .ok ⟨.bool true, rest, Nat.lt_succ_self _⟩
  | ⟨.keyword .falseWord, _⟩ :: rest => .ok ⟨.bool false, rest, Nat.lt_succ_self _⟩
  | ⟨.keyword .nullWord, _⟩ :: rest => .ok ⟨.null, rest, Nat.lt_succ_self _⟩
  | ⟨.name name, _⟩ :: rest => .ok ⟨.fact name, rest, Nat.lt_succ_self _⟩
  | ⟨.symbol .openParenthesis, _⟩ :: rest =>
    match expression finish leastPrecedence rest with
    | .error fault => .error fault
    | .ok inner =>
      match inner.closedBy finish .closeParenthesis .parenthesisEnd with
      | .error fault => .error fault
      | .ok ⟨e, behind, fewer⟩ => .ok ⟨e, behind, by simp only [List.length_cons]; omega⟩
  | tokens => .error (missing finish .expression tokens)
termination_by 4 * tokens.length + 1

end

def wholeExpression (finish : Position) (tokens : List Token) : Except Fault Expr :=
  match tokens with
  | [] => .error ⟨.emptyExpression, finish⟩
  | tokens =>
    match expression finish leastPrecedence tokens with
    | .error fault => .error fault
    | .ok ⟨e, [], _⟩ => .ok e
    | .ok ⟨_, token :: _, _⟩ =>
      match token.lexeme with
      | .symbol .assign => .error ⟨.assignmentInCondition, token.place⟩
      | lexeme => .error ⟨.afterExpression lexeme, token.place⟩

end Rulebook.Grammar

namespace Rulebook

def Expr.parse (text : String) : Except Grammar.Fault Expr :=
  match Scan.strict text with
  | .error fault => .error (.ofScan fault)
  | .ok scan => Grammar.wholeExpression scan.finish scan.tokens

end Rulebook
