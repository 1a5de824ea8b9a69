import Rulebook.Grammar.Expression
import Rulebook.Rule.Basic

/-!
# Reading rules

Reading rules from tokens: a name, an optional description and salience, and between braces the
condition and one or more actions, each of which ends in a semicolon.
-/

namespace Rulebook.Grammar

open Text (Position Quotable)

def nextIs (symbol : Symbol) (tokens : List Token) : Bool :=
  next? tokens == some (.symbol symbol)

def symbol (finish : Position) (symbol : Symbol) (what : Expectation) (tokens : List Token) :
    Except Fault (List Token) :=
  match tokens with
  | [] => .error (missing finish what [])
  | token :: rest =>
    if token.lexeme = .symbol symbol then .ok rest
    else .error (missing finish what (token :: rest))

def keyword (finish : Position) (keyword : Keyword) (what : Expectation) (tokens : List Token) :
    Except Fault (List Token) :=
  match tokens with
  | [] => .error (missing finish what [])
  | token :: rest =>
    if token.lexeme = .keyword keyword then .ok rest
    else .error (missing finish what (token :: rest))

def ruleName (finish : Position) : List Token → Except Fault (String × List Token)
  | ⟨.name name, _⟩ :: rest => .ok (name, rest)
  | tokens => .error (missing finish .ruleName tokens)

/-- Reads a description, if there is one. -/
def description : List Token → Option Quotable × List Token
  | ⟨.string text, _⟩ :: rest => (some text, rest)
  | tokens => (none, tokens)

/-- Reads the digits of a salience, which has no point. Too many digits are no fault of syntax. -/
def salienceDigits (finish : Position) (tokens : List Token) : Except Fault (Nat × List Token) :=
  match tokens with
  | ⟨.number numeral, place⟩ :: rest =>
    if numeral.isOverlong then .error ⟨.tooManyDigits numeral.whole.length, place⟩
    else
      match numeral.toNat? with
      | some n => .ok (n, rest)
      | none => .error (missing finish .salience (⟨.number numeral, place⟩ :: rest))
  | tokens => .error (missing finish .salience tokens)

theorem salienceDigits_of_toNat? (finish : Position) {numeral : Numeral} {n : Nat}
    (whole : numeral.toNat? = some n) (place : Position) (rest : List Token) :
    salienceDigits finish (⟨.number numeral, place⟩ :: rest) = .ok (n, rest) := by
  simp [salienceDigits, whole, (Numeral.toNat?_eq_some_iff.1 whole).2]

theorem salienceDigits_of_isOverlong (finish : Position) {numeral : Numeral}
    (long : numeral.isOverlong = true) (place : Position) (rest : List Token) :
    salienceDigits finish (⟨.number numeral, place⟩ :: rest) =
      .error ⟨.tooManyDigits numeral.whole.length, place⟩ := by
  simp [salienceDigits, long]

/-- Reads a salience, if there is one; without it the salience is zero. -/
def salience (finish : Position) : List Token → Except Fault (Int × List Token)
  | ⟨.keyword .salience, _⟩ :: ⟨.symbol .minus, _⟩ :: rest =>
    (salienceDigits finish rest).map fun (n, behind) => (-(n : Int), behind)
  | ⟨.keyword .salience, _⟩ :: rest =>
    (salienceDigits finish rest).map fun (n, behind) => ((n : Int), behind)
  | tokens => .ok (0, tokens)

/-- Reads an action with its semicolon. Left of an assignment only a path can stand. -/
def action (finish : Position) (tokens : List Token) :
    Except Fault (Parsed Expr tokens.length) :=
  match expression finish leastPrecedence tokens with
  | .error fault => .error fault
  | .ok left =>
    match left with
    | ⟨target, ⟨.symbol .assign, _⟩ :: rest, fewer⟩ =>
      if target.isPath then
        match expression finish leastPrecedence rest with
        | .error fault => .error fault
        | .ok ⟨value, behind, fewerBehind⟩ =>
          Parsed.closedBy
            ⟨.assign target value, behind, by simp only [List.length_cons] at fewer; omega⟩
            finish .semicolon .actionEnd
      else .error ⟨.targetNoPath, here finish tokens⟩
    | left => left.closedBy finish .semicolon .actionEnd

/-- Reads actions up to the closing brace of a rule. -/
def actions (finish : Position) (rule : String) (tokens : List Token) :
    Except Fault (List Expr × List Token) :=
  match tokens with
  | [] => .error ⟨.unclosedRule rule, finish⟩
  | token :: rest =>
    if token.lexeme = .symbol .closeBrace then .ok ([], token :: rest)
    else
      match action finish (token :: rest) with
      | .error fault => .error fault
      | .ok ⟨first, behind, _⟩ =>
        (actions finish rule behind).map fun (others, last) => (first :: others, last)
termination_by tokens.length
decreasing_by assumption

def condition (finish : Position) (rule : String) (tokens : List Token) :
    Except Fault (Expr × List Token) := do
  let inner ← keyword finish .whenWord (.whenKeyword rule) tokens
  match expression finish leastPrecedence inner with
  | .error fault => .error fault
  | .ok ⟨e, rest, _⟩ =>
    if nextIs .assign rest then .error ⟨.assignmentInCondition, here finish rest⟩
    else do
      let behind ← keyword finish .thenWord (.thenKeyword rule) rest
      .ok (e, behind)

def rule (finish : Position) (tokens : List Token) : Except Fault (Rule × List Token) := do
  let tokens ← keyword finish .rule .ruleKeyword tokens
  let (name, tokens) ← ruleName finish tokens
  let (description, tokens) := description tokens
  let (salience, tokens) ← salience finish tokens
  let tokens ← symbol finish .openBrace (.opening name) tokens
  let (condition, tokens) ← condition finish name tokens
  let (actions, tokens) ← actions finish name tokens
  if actions.isEmpty then .error ⟨.noActions name, here finish tokens⟩
  else .ok (⟨name, salience, condition, actions, description⟩, tokens.tail)

def wholeRule (finish : Position) (tokens : List Token) : Except Fault Rule := do
  let (rule, rest) ← rule finish tokens
  match rest with
  | [] => .ok rule
  | token :: _ => .error ⟨.afterRule rule.name token.lexeme, token.place⟩

end Rulebook.Grammar

namespace Rulebook

def Rule.parse (text : String) : Except Grammar.Fault Rule :=
  match Scan.strict text with
  | .error fault => .error (.ofScan fault)
  | .ok scan => Grammar.wholeRule scan.finish scan.tokens

end Rulebook
