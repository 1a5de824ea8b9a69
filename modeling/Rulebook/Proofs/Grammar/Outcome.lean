import Rulebook.Proofs.Grammar.Derivation

/-!
# Outcomes of readers

What the readers of expressions give, without the bounds on the tokens that they leave. In this
form each reader has one equation for each way in which the tokens can begin.
-/

namespace Rulebook.Grammar

open Text (Position)

/-- What a reader gives, without the bound on the tokens that are left. -/
def outcome {α : Type} {bound : Nat} (result : Except Fault (Parsed α bound)) :
    Except Fault (α × List Token) :=
  result.map fun parsed => (parsed.value, parsed.rest)

variable (finish : Position)

theorem outcome_closedBy {α : Type} {bound : Nat} (parsed : Parsed α bound) (sign : Symbol)
    (what : Expectation) :
    outcome (parsed.closedBy finish sign what) =
      (symbol finish sign what parsed.rest).map fun behind => (parsed.value, behind) := by
  obtain ⟨value, rest, fewer⟩ := parsed
  cases rest with
  | nil => rfl
  | cons token others =>
      by_cases closed : token.lexeme = .symbol sign
      · simp [outcome, symbol, Parsed.closedBy, closed, Except.map]
      · simp [outcome, symbol, Parsed.closedBy, closed, Except.map]

theorem outcome_expression (least : Nat) (tokens : List Token) :
    outcome (expression finish least tokens) =
      outcome (operand finish tokens) >>= fun (left, rest) =>
        outcome (operators finish least left rest) := by
  rw [expression]
  cases operand finish tokens with
  | error fault => rfl
  | ok parsed =>
      obtain ⟨left, rest, fewer⟩ := parsed
      cases read : operators finish least left rest with
      | error fault => simp [outcome, read, bind, Except.bind, Except.map]
      | ok whole => simp [outcome, read, bind, Except.bind, Except.map]

theorem outcome_operators_nil (least : Nat) (left : Expr) :
    outcome (operators finish least left []) = .ok (left, []) := by
  rw [operators]
  rfl

theorem outcome_operators_none {least : Nat} {left : Expr} {token : Token} {rest : List Token}
    (noOperator : operator? token = none) :
    outcome (operators finish least left (token :: rest)) = .ok (left, token :: rest) := by
  rw [operators]
  split
  · rfl
  · next op found => exact absurd (noOperator.symm.trans found) (by simp)

/-- An operator that binds closely enough takes its right operand, and more operators may follow. -/
theorem outcome_operators_some {least : Nat} {left : Expr} {token : Token} {rest : List Token}
    {op : BinaryOp} (found : operator? token = some op) :
    outcome (operators finish least left (token :: rest)) =
      if op.precedence < least then .ok (left, token :: rest)
      else
        outcome (expression finish (op.precedence + 1) rest) >>= fun (right, behind) =>
          outcome (operators finish least (.binary op left right) behind) := by
  rw [operators]
  split
  · next noOperator => exact absurd (found.symm.trans noOperator) (by simp)
  · next other foundOther =>
      obtain rfl : op = other := Option.some.inj (found.symm.trans foundOther)
      by_cases weak : op.precedence < least
      · simp [weak, outcome, Except.map]
      · simp only [weak, if_false]
        cases expression finish (op.precedence + 1) rest with
        | error fault => rfl
        | ok parsed =>
            obtain ⟨right, behind, fewer⟩ := parsed
            cases read : operators finish least (.binary op left right) behind with
            | error fault => simp [outcome, read, bind, Except.bind, Except.map]
            | ok whole => simp [outcome, read, bind, Except.bind, Except.map]

theorem outcome_operand_not (place : Position) (rest : List Token) :
    outcome (operand finish (⟨.symbol .not, place⟩ :: rest)) =
      (outcome (operand finish rest)).map fun (inner, behind) => (.unary .not inner, behind) := by
  rw [operand]
  cases operand finish rest <;> rfl

theorem outcome_operand_minus (place : Position) (rest : List Token) :
    outcome (operand finish (⟨.symbol .minus, place⟩ :: rest)) =
      (outcome (operand finish rest)).map fun (inner, behind) => (negation inner, behind) := by
  rw [operand]
  cases operand finish rest <;> rfl

theorem outcome_operand_else {tokens : List Token}
    (noNot : next? tokens ≠ some (.symbol .not)) (noMinus : next? tokens ≠ some (.symbol .minus)) :
    outcome (operand finish tokens) =
      outcome (primary finish tokens) >>= fun (base, rest) =>
        outcome (accessors finish base rest) := by
  rw [operand.eq_def]
  split
  · exact absurd rfl noNot
  · exact absurd rfl noMinus
  · cases primary finish tokens with
    | error fault => rfl
    | ok parsed =>
        obtain ⟨base, rest, fewer⟩ := parsed
        cases read : accessors finish base rest with
        | error fault => simp [outcome, read, bind, Except.bind, Except.map]
        | ok whole => simp [outcome, read, bind, Except.bind, Except.map]

theorem outcome_accessors_field (base : Expr) (name : String) (place namePlace : Position)
    (rest : List Token) :
    outcome (accessors finish base (⟨.symbol .dot, place⟩ :: ⟨.name name, namePlace⟩ :: rest)) =
      outcome (accessors finish (.field base name) rest) := by
  rw [accessors]
  cases accessors finish (.field base name) rest <;> rfl

theorem outcome_accessors_unnamed {base : Expr} {place : Position} {rest : List Token}
    (noName : ∀ name, next? rest ≠ some (.name name)) :
    outcome (accessors finish base (⟨.symbol .dot, place⟩ :: rest)) =
      .error (missing finish .fieldName rest) := by
  rw [accessors]
  · rfl
  · rintro name namePlace others rfl
    exact noName name rfl

theorem outcome_accessors_element (base : Expr) (place : Position) (rest : List Token) :
    outcome (accessors finish base (⟨.symbol .openBracket, place⟩ :: rest)) =
      outcome (expression finish leastPrecedence rest) >>= fun (index, behind) =>
        symbol finish .closeBracket .indexEnd behind >>= fun last =>
          outcome (accessors finish (.element base index) last) := by
  rw [accessors]
  cases expression finish leastPrecedence rest with
  | error fault => rfl
  | ok inner =>
      have closed := outcome_closedBy finish inner .closeBracket .indexEnd
      cases found : inner.closedBy finish .closeBracket .indexEnd with
      | error fault =>
          cases read : symbol finish .closeBracket .indexEnd inner.rest with
          | error other => simp_all [outcome, bind, Except.bind, Except.map]
          | ok last => simp_all [outcome, Except.map]
      | ok parsed =>
          obtain ⟨index, behind, fewer⟩ := parsed
          cases read : symbol finish .closeBracket .indexEnd inner.rest with
          | error other => simp_all [outcome, Except.map]
          | ok last =>
              simp only [found, read, outcome, Except.map, Except.ok.injEq, Prod.mk.injEq] at closed
              obtain ⟨rfl, rfl⟩ := closed
              cases next : accessors finish (.element base inner.value) behind with
              | error fault => simp [outcome, found, read, next, bind, Except.bind, Except.map]
              | ok whole => simp [outcome, found, read, next, bind, Except.bind, Except.map]

theorem outcome_accessors_else {base : Expr} {tokens : List Token}
    (noDot : next? tokens ≠ some (.symbol .dot))
    (noBracket : next? tokens ≠ some (.symbol .openBracket)) :
    outcome (accessors finish base tokens) = .ok (base, tokens) := by
  rw [accessors.eq_def]
  split
  · exact absurd rfl noDot
  · exact absurd rfl noDot
  · exact absurd rfl noBracket
  · rfl

theorem outcome_primary_atom {token : Token} {rest : List Token} {e : Expr}
    (found : atom? token.lexeme = some e) :
    outcome (primary finish (token :: rest)) = .ok (e, rest) := by
  obtain ⟨lexeme, place⟩ := token
  rw [primary.eq_def]
  cases lexeme with
  | keyword word => cases word <;> simp_all [atom?, outcome, Except.map]
  | name text | number numeral | string text => simp_all [atom?, outcome, Except.map]
  | symbol sign | malformed fault => simp [atom?] at found

theorem outcome_primary_parenthesis (place : Position) (rest : List Token) :
    outcome (primary finish (⟨.symbol .openParenthesis, place⟩ :: rest)) =
      outcome (expression finish leastPrecedence rest) >>= fun (e, behind) =>
        (symbol finish .closeParenthesis .parenthesisEnd behind).map fun last => (e, last) := by
  rw [primary]
  cases expression finish leastPrecedence rest with
  | error fault => rfl
  | ok inner =>
      have closed := outcome_closedBy finish inner .closeParenthesis .parenthesisEnd
      cases found : inner.closedBy finish .closeParenthesis .parenthesisEnd with
      | error fault => simpa [found, outcome, bind, Except.bind, Except.map] using closed
      | ok parsed => simpa [found, outcome, bind, Except.bind, Except.map] using closed

theorem outcome_primary_else {tokens : List Token}
    (noAtom : ∀ token ∈ tokens.head?, atom? token.lexeme = none)
    (noParenthesis : next? tokens ≠ some (.symbol .openParenthesis)) :
    outcome (primary finish tokens) = .error (missing finish .expression tokens) := by
  rw [primary.eq_def]
  split
  case h_8 => rfl
  case h_7 => exact absurd rfl noParenthesis
  all_goals exact absurd (noAtom _ rfl) (by simp [atom?])

end Rulebook.Grammar
