import Rulebook.Grammar.Rule

/-!
# The grammar

The grammar of expressions, actions and rules, as relations between lexemes and what they write.
Each binding power is a level of its own, left recursive in its operators; above the operators
between two operands stand those before one operand, then the accessors, then what is written
with one lexeme or between parentheses.
-/

namespace Rulebook.Grammar

/-- The level of expressions with fields and indices behind them. -/
def accessLevel : Nat := UnaryOp.precedence + 1

/-- The level of expressions that are written with one lexeme or between parentheses. -/
def primaryLevel : Nat := UnaryOp.precedence + 2

/-- The expression that a single lexeme writes. -/
def atom? : Lexeme → Option Expr
  | .number numeral => some (.number numeral.toFloat)
  | .string text => some (.string text)
  | .keyword .trueWord => some (.bool true)
  | .keyword .falseWord => some (.bool false)
  | .keyword .nullWord => some .null
  | .name name => some (.fact name)
  | _ => none

/-- `Derives level lexemes e` means that the lexemes write the expression `e` at a level of binding
power. -/
inductive Derives : Nat → List Lexeme → Expr → Prop
  | tighter {level : Nat} {lexemes : List Lexeme} {e : Expr} :
      Derives (level + 1) lexemes e →
      Derives level lexemes e
  | binary {symbol : Symbol} {op : BinaryOp} {before behind : List Lexeme} {left right : Expr} :
      symbol.binary? = some op →
      Derives op.precedence before left →
      Derives (op.precedence + 1) behind right →
      Derives op.precedence (before ++ .symbol symbol :: behind) (.binary op left right)
  | not {lexemes : List Lexeme} {operand : Expr} :
      Derives UnaryOp.precedence lexemes operand →
      Derives UnaryOp.precedence (.symbol .not :: lexemes) (.unary .not operand)
  | minus {lexemes : List Lexeme} {operand : Expr} :
      Derives UnaryOp.precedence lexemes operand →
      Derives UnaryOp.precedence (.symbol .minus :: lexemes) (negation operand)
  | field {lexemes : List Lexeme} {base : Expr} {name : String} :
      Derives accessLevel lexemes base →
      Derives accessLevel (lexemes ++ [.symbol .dot, .name name]) (.field base name)
  | element {before inside : List Lexeme} {base index : Expr} :
      Derives accessLevel before base →
      Derives leastPrecedence inside index →
      Derives accessLevel
        (before ++ .symbol .openBracket :: (inside ++ [.symbol .closeBracket]))
        (.element base index)
  | atom {lexeme : Lexeme} {e : Expr} :
      atom? lexeme = some e →
      Derives primaryLevel [lexeme] e
  | parenthesized {lexemes : List Lexeme} {e : Expr} :
      Derives leastPrecedence lexemes e →
      Derives primaryLevel
        (.symbol .openParenthesis :: (lexemes ++ [.symbol .closeParenthesis])) e

theorem Derives.loosen {level lower : Nat} {lexemes : List Lexeme} {e : Expr}
    (derivation : Derives level lexemes e) (weaker : lower ≤ level) :
    Derives lower lexemes e := by
  obtain ⟨levels, rfl⟩ := Nat.exists_eq_add_of_le weaker
  clear weaker
  induction levels with
  | zero => exact derivation
  | succ levels inductionHypothesis => exact inductionHypothesis derivation.tighter

/-! ## Operators by their levels -/

/-- The symbols between two operands, from those that bind least to those that bind most. -/
def operatorLevels : List (List Symbol) :=
  [[.or], [.and], [.equal, .notEqual], [.less, .lessEqual, .greater, .greaterEqual],
    [.plus, .minus], [.times, .divide]]

theorem leastPrecedence_add_length : leastPrecedence + operatorLevels.length = UnaryOp.precedence :=
  rfl

/-- Each operator between two operands stands in one level, which is its binding power. -/
theorem mem_operatorLevels_iff {symbol : Symbol} {level : Nat} :
    (∃ symbols, operatorLevels[level]? = some symbols ∧ symbol ∈ symbols) ↔
      ∃ op, symbol.binary? = some op ∧ op.precedence = leastPrecedence + level := by
  match level with
  | 0 | 1 | 2 | 3 | 4 | 5 =>
      cases symbol <;>
        simp [operatorLevels, Symbol.binary?, BinaryOp.precedence, leastPrecedence]
  | level + 6 =>
      cases symbol <;>
        simp +arith [operatorLevels, Symbol.binary?, BinaryOp.precedence, leastPrecedence]

/-- An operator groups to the left: what stands on its right binds more than it does. -/
theorem Derives.between {level : Nat} {symbols : List Symbol} {symbol : Symbol}
    {before behind : List Lexeme} {left right : Expr}
    (isLevel : operatorLevels[level]? = some symbols) (member : symbol ∈ symbols)
    (derivesLeft : Derives (leastPrecedence + level) before left)
    (derivesRight : Derives (leastPrecedence + level + 1) behind right) :
    ∃ op, symbol.binary? = some op ∧
      Derives (leastPrecedence + level) (before ++ .symbol symbol :: behind)
        (.binary op left right) := by
  obtain ⟨op, isOperator, isPower⟩ := mem_operatorLevels_iff.1 ⟨symbols, isLevel, member⟩
  rw [← isPower] at derivesLeft derivesRight ⊢
  exact ⟨op, isOperator, .binary isOperator derivesLeft derivesRight⟩

/-- A minus in front of what is read as a number literal makes it one of the other sign. -/
theorem Derives.minus_literal {lexemes : List Lexeme} {x : Float}
    (derivation : Derives UnaryOp.precedence lexemes (.number x)) :
    Derives UnaryOp.precedence (.symbol .minus :: lexemes) (.number (-x)) :=
  negation_number x ▸ derivation.minus

/-- In front of any other operand it is an operator. -/
theorem Derives.minus_operand {lexemes : List Lexeme} {operand : Expr}
    (derivation : Derives UnaryOp.precedence lexemes operand)
    (noLiteral : ∀ x, operand ≠ .number x) :
    Derives UnaryOp.precedence (.symbol .minus :: lexemes) (.unary .negate operand) :=
  negation_of_ne_number noLiteral ▸ derivation.minus

/-! ## Actions and rules -/

/-- `DerivesAction lexemes action` means that the lexemes write an action with its semicolon. -/
inductive DerivesAction : List Lexeme → Expr → Prop
  | evaluated {lexemes : List Lexeme} {e : Expr} :
      Derives leastPrecedence lexemes e →
      DerivesAction (lexemes ++ [.symbol .semicolon]) e
  | assigned {before behind : List Lexeme} {target value : Expr} :
      Derives leastPrecedence before target →
      target.isPath = true →
      Derives leastPrecedence behind value →
      DerivesAction (before ++ .symbol .assign :: (behind ++ [.symbol .semicolon]))
        (.assign target value)

theorem DerivesAction.ne_nil {lexemes : List Lexeme} {action : Expr}
    (derivation : DerivesAction lexemes action) : lexemes ≠ [] := by
  cases derivation <;> simp

/-- `DerivesActions lexemes actions` means that the lexemes write the actions one after another. -/
inductive DerivesActions : List Lexeme → List Expr → Prop
  | nil : DerivesActions [] []
  | cons {first others : List Lexeme} {action : Expr} {actions : List Expr} :
      DerivesAction first action →
      DerivesActions others actions →
      DerivesActions (first ++ others) (action :: actions)

/-- The lexemes with which a description is written, if there is one. -/
def descriptionLexemes : Option Text.Quotable → List Lexeme
  | some text => [.string text]
  | none => []

/-- `DerivesSalienceBy natural? lexemes salience` means that the lexemes write a salience, which is
zero where it is left out, in a numeral for which there is a natural number. -/
inductive DerivesSalienceBy (natural? : Numeral → Option Nat) : List Lexeme → Int → Prop
  | omitted : DerivesSalienceBy natural? [] 0
  | positive {numeral : Numeral} {n : Nat} :
      natural? numeral = some n →
      DerivesSalienceBy natural? [.keyword .salience, .number numeral] n
  | negative {numeral : Numeral} {n : Nat} :
      natural? numeral = some n →
      DerivesSalienceBy natural? [.keyword .salience, .symbol .minus, .number numeral] (-n)

/-- `DerivesRuleBy natural? lexemes rule` means that the lexemes write a rule: its name, description
and salience, and between braces its condition and its actions, of which there is one at least. -/
inductive DerivesRuleBy (natural? : Numeral → Option Nat) : List Lexeme → Rule → Prop
  | intro {salienceLexemes conditionLexemes actionLexemes : List Lexeme} {rule : Rule} :
      DerivesSalienceBy natural? salienceLexemes rule.salience →
      Derives leastPrecedence conditionLexemes rule.condition →
      DerivesActions actionLexemes rule.actions →
      rule.actions ≠ [] →
      DerivesRuleBy natural?
        (.keyword .rule :: .name rule.name ::
          (descriptionLexemes rule.description ++
            (salienceLexemes ++
              (.symbol .openBrace :: .keyword .whenWord ::
                (conditionLexemes ++
                  (.keyword .thenWord :: (actionLexemes ++ [.symbol .closeBrace])))))))
        rule

/-- Saliences in numerals that are read. -/
abbrev DerivesSalience : List Lexeme → Int → Prop := DerivesSalienceBy Numeral.toNat?

/-- Rules with a salience that is read. -/
abbrev DerivesRule : List Lexeme → Rule → Prop := DerivesRuleBy Numeral.toNat?

/-- Rules with a salience of any number of digits. -/
abbrev WritesRule : List Lexeme → Rule → Prop := DerivesRuleBy Numeral.natural?

end Rulebook.Grammar
