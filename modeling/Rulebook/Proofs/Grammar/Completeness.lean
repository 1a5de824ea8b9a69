import Rulebook.Proofs.Grammar.Outcome

/-!
# Completeness for expressions

The readers of expressions and rules find what the grammar derives: tokens whose lexemes write an
expression are read as that expression, up to tokens that cannot belong to it.
-/

namespace Rulebook.Grammar

open Text (Position)

theorem exists_token_of_map_eq_cons {tokens : List Token} {lexeme : Lexeme}
    {lexemes : List Lexeme} (spelled : tokens.map Token.lexeme = lexeme :: lexemes) :
    ∃ place others, tokens = ⟨lexeme, place⟩ :: others ∧
      others.map Token.lexeme = lexemes := by
  obtain ⟨token, others, rfl, rfl, spelledOthers⟩ := List.map_eq_cons_iff.1 spelled
  exact ⟨token.place, others, rfl, spelledOthers⟩

/-! ## Where an expression ends -/

/-- Whether neither an accessor stands before certain tokens, nor an operator of at least a given
binding power. -/
structure Stops (least : Nat) (rest : List Token) : Prop where
  noDot : next? rest ≠ some (.symbol .dot)
  noBracket : next? rest ≠ some (.symbol .openBracket)
  weak : ∀ token ∈ rest.head?, ∀ op, operator? token = some op → op.precedence < least

theorem Stops.mono {least more : Nat} {rest : List Token} (stops : Stops least rest)
    (less : least ≤ more) : Stops more rest :=
  ⟨stops.noDot, stops.noBracket, fun token member op found =>
    Nat.lt_of_lt_of_le (stops.weak token member op found) less⟩

theorem precedence_pos (op : BinaryOp) : leastPrecedence ≤ op.precedence := by
  rcases op with (_ | _ | _ | _) | (_ | _ | _ | _) | _ | _ | _ | _ <;> decide

/-- Unary operators bind closer than all binary ones. -/
theorem precedence_lt_unary (op : BinaryOp) : op.precedence < UnaryOp.precedence := by
  rcases op with (_ | _ | _ | _) | (_ | _ | _ | _) | _ | _ | _ | _ <;> decide

/-- An operator ends an expression in which all operators have greater binding power. -/
theorem stops_operator {symbol : Symbol} {op : BinaryOp} {place : Position} {rest : List Token}
    (operator : symbol.binary? = some op) :
    Stops (op.precedence + 1) (⟨.symbol symbol, place⟩ :: rest) := by
  refine ⟨?_, ?_, ?_⟩
  · intro dot
    simp only [next?, List.head?_cons, Option.map_some, Option.some.injEq,
      Lexeme.symbol.injEq] at dot
    simp [dot, Symbol.binary?] at operator
  · intro bracket
    simp only [next?, List.head?_cons, Option.map_some, Option.some.injEq,
      Lexeme.symbol.injEq] at bracket
    simp [bracket, Symbol.binary?] at operator
  · rintro token ⟨⟩ other found
    obtain rfl : op = other := Option.some.inj (operator.symm.trans found)
    exact Nat.lt_succ_self _

/-- A lexeme that begins neither an accessor nor an operation ends every expression. -/
theorem stops_of_lexeme {lexeme : Lexeme} {place : Position} {rest : List Token} (least : Nat)
    (noDot : lexeme ≠ .symbol .dot) (noBracket : lexeme ≠ .symbol .openBracket)
    (noOperator : operator? ⟨lexeme, place⟩ = none) :
    Stops least (⟨lexeme, place⟩ :: rest) := by
  refine ⟨?_, ?_, ?_⟩
  · simpa [next?] using noDot
  · simpa [next?] using noBracket
  · rintro token ⟨⟩ op found
    exact absurd (noOperator.symm.trans found) (by simp)

variable {finish : Position}

theorem outcome_operators_of_stops {least : Nat} {e : Expr} {rest : List Token}
    (stops : Stops least rest) :
    outcome (operators finish least e rest) = .ok (e, rest) := by
  cases rest with
  | nil => exact outcome_operators_nil finish least e
  | cons token others =>
      cases found : operator? token with
      | none => exact outcome_operators_none finish found
      | some op =>
          rw [outcome_operators_some finish found,
            if_pos (stops.weak token rfl op found)]

/-! ## What is read at each level -/

variable (finish)

/-- The lexemes are read as a literal, the name of a fact, or an expression in parentheses. -/
def PrimaryReads (lexemes : List Lexeme) (e : Expr) : Prop :=
  ∀ tokens rest, tokens.map Token.lexeme = lexemes →
    outcome (primary finish (tokens ++ rest)) = .ok (e, rest)

/-- Having read the lexemes, the reader of accessors stands where it stands behind `e`. -/
def AccessReads (lexemes : List Lexeme) (e : Expr) : Prop :=
  ∀ tokens rest, tokens.map Token.lexeme = lexemes →
    ∃ base behind, outcome (primary finish (tokens ++ rest)) = .ok (base, behind) ∧
      outcome (accessors finish base behind) = outcome (accessors finish e rest)

/-- The lexemes are read as an operand, where no accessor follows. -/
def OperandReads (lexemes : List Lexeme) (e : Expr) : Prop :=
  ∀ tokens rest, tokens.map Token.lexeme = lexemes →
    next? rest ≠ some (.symbol .dot) → next? rest ≠ some (.symbol .openBracket) →
    outcome (operand finish (tokens ++ rest)) = .ok (e, rest)

/-- Having read the lexemes, the reader of operators stands where it stands behind `e`, as long as
no operator that binds stronger than the level follows. -/
def OperationReads (level : Nat) (lexemes : List Lexeme) (e : Expr) : Prop :=
  ∀ tokens rest, tokens.map Token.lexeme = lexemes → Stops (level + 1) rest →
    ∀ least ≤ level,
      outcome (expression finish least (tokens ++ rest)) =
        outcome (operators finish least e rest)

def LevelReads (level : Nat) (lexemes : List Lexeme) (e : Expr) : Prop :=
  if level < UnaryOp.precedence then OperationReads finish level lexemes e
  else if level = UnaryOp.precedence then OperandReads finish lexemes e
  else if level = accessLevel then AccessReads finish lexemes e
  else PrimaryReads finish lexemes e

theorem levelReads_of_lt {level : Nat} (low : level < UnaryOp.precedence) :
    LevelReads finish level = OperationReads finish level := by
  funext lexemes e
  rw [LevelReads, if_pos low]

theorem levelReads_unary : LevelReads finish UnaryOp.precedence = OperandReads finish := by
  funext lexemes e
  rw [LevelReads, if_neg (by decide), if_pos rfl]

theorem levelReads_access : LevelReads finish accessLevel = AccessReads finish := by
  funext lexemes e
  rw [LevelReads, if_neg (by decide), if_neg (by decide), if_pos rfl]

theorem levelReads_of_gt {level : Nat} (high : accessLevel < level) :
    LevelReads finish level = PrimaryReads finish := by
  have unary : UnaryOp.precedence < accessLevel := Nat.lt_succ_self _
  funext lexemes e
  rw [LevelReads, if_neg (by omega), if_neg (by omega), if_neg (by omega)]

theorem levelReads_primary : LevelReads finish primaryLevel = PrimaryReads finish :=
  levelReads_of_gt finish (Nat.lt_succ_self _)

variable {finish}

private theorem accessReads_of_primaryReads {lexemes : List Lexeme} {e : Expr}
    (reads : PrimaryReads finish lexemes e) : AccessReads finish lexemes e := by
  intro tokens rest spelled
  exact ⟨e, rest, reads tokens rest spelled, rfl⟩

private theorem no_unary_of_primary {tokens rest : List Token} {e : Expr}
    (read : outcome (primary finish tokens) = .ok (e, rest)) :
    next? tokens ≠ some (.symbol .not) ∧ next? tokens ≠ some (.symbol .minus) := by
  cases tokens with
  | nil => simp [next?]
  | cons token others =>
      obtain ⟨lexeme, place⟩ := token
      constructor
      · intro isNot
        obtain rfl : lexeme = .symbol .not := by simpa [next?] using isNot
        simp [primary, outcome, Except.map] at read
      · intro isMinus
        obtain rfl : lexeme = .symbol .minus := by simpa [next?] using isMinus
        simp [primary, outcome, Except.map] at read

private theorem operandReads_of_accessReads {lexemes : List Lexeme} {e : Expr}
    (reads : AccessReads finish lexemes e) : OperandReads finish lexemes e := by
  intro tokens rest spelled noDot noBracket
  obtain ⟨base, behind, readPrimary, sameAccessors⟩ := reads tokens rest spelled
  obtain ⟨noNot, noMinus⟩ := no_unary_of_primary readPrimary
  rw [outcome_operand_else finish noNot noMinus, readPrimary]
  exact sameAccessors.trans (outcome_accessors_else finish noDot noBracket)

theorem operationReads_of_operandReads {lexemes : List Lexeme} {e : Expr} (level : Nat)
    (reads : OperandReads finish lexemes e) : OperationReads finish level lexemes e := by
  intro tokens rest spelled stops least _
  rw [outcome_expression, reads tokens rest spelled stops.noDot stops.noBracket]
  rfl

theorem OperationReads.loosen {level : Nat} {lexemes : List Lexeme} {e : Expr}
    (reads : OperationReads finish (level + 1) lexemes e) :
    OperationReads finish level lexemes e := by
  intro tokens rest spelled stops least low
  exact reads tokens rest spelled (stops.mono (Nat.le_succ _)) least (Nat.le_succ_of_le low)

theorem LevelReads.loosen {level : Nat} {lexemes : List Lexeme} {e : Expr}
    (reads : LevelReads finish (level + 1) lexemes e) : LevelReads finish level lexemes e := by
  have access : accessLevel = UnaryOp.precedence + 1 := rfl
  rcases Nat.lt_trichotomy level UnaryOp.precedence with low | rfl | high
  · rw [levelReads_of_lt finish low]
    by_cases lower : level + 1 < UnaryOp.precedence
    · rw [levelReads_of_lt finish lower] at reads
      exact reads.loosen
    · obtain same : level + 1 = UnaryOp.precedence := by omega
      rw [same, levelReads_unary] at reads
      exact operationReads_of_operandReads level reads
  · rw [levelReads_unary]
    rw [← access, levelReads_access] at reads
    exact operandReads_of_accessReads reads
  · rw [levelReads_of_gt finish (by omega)] at reads
    by_cases higher : accessLevel < level
    · rwa [levelReads_of_gt finish higher]
    · obtain rfl : level = accessLevel := by omega
      rw [levelReads_access]
      exact accessReads_of_primaryReads reads

/-- A whole expression is read from lexemes that are read at the level of its operators. -/
theorem LevelReads.expression {level : Nat} {lexemes : List Lexeme} {e : Expr}
    (reads : LevelReads finish level lexemes e) (low : level ≤ UnaryOp.precedence)
    {tokens rest : List Token} (spelled : tokens.map Token.lexeme = lexemes)
    (stops : Stops level rest) :
    outcome (Grammar.expression finish level (tokens ++ rest)) = .ok (e, rest) := by
  have operation : OperationReads finish level lexemes e := by
    rcases Nat.lt_or_eq_of_le low with lower | rfl
    · rwa [levelReads_of_lt finish lower] at reads
    · rw [levelReads_unary] at reads
      exact operationReads_of_operandReads _ reads
  rw [operation tokens rest spelled (stops.mono (Nat.le_succ _)) level (Nat.le_refl _)]
  exact outcome_operators_of_stops stops

/-! ## Each rule of the grammar is read -/

theorem OperationReads.binary {symbol : Symbol} {op : BinaryOp} {before behind : List Lexeme}
    {left right : Expr} (operator : symbol.binary? = some op)
    (readsLeft : OperationReads finish op.precedence before left)
    (readsRight : LevelReads finish (op.precedence + 1) behind right) :
    OperationReads finish op.precedence (before ++ .symbol symbol :: behind)
      (.binary op left right) := by
  intro tokens rest spelled stops least low
  obtain ⟨first, others, rfl, spelledFirst, spelledOthers⟩ := List.map_eq_append_iff.1 spelled
  obtain ⟨place, second, rfl, spelledSecond⟩ := exists_token_of_map_eq_cons spelledOthers
  have found : operator? ⟨.symbol symbol, place⟩ = some op := operator
  have readRight :=
    readsRight.expression (precedence_lt_unary op) spelledSecond stops
  have notWeak : ¬ op.precedence < least := Nat.not_lt.2 low
  rw [List.append_assoc, List.cons_append,
    readsLeft first _ spelledFirst (stops_operator operator) least low,
    outcome_operators_some finish found, if_neg notWeak, readRight]
  rfl

theorem OperandReads.not {lexemes : List Lexeme} {e : Expr}
    (reads : OperandReads finish lexemes e) :
    OperandReads finish (.symbol .not :: lexemes) (.unary .not e) := by
  intro tokens rest spelled noDot noBracket
  obtain ⟨place, others, rfl, spelledOthers⟩ := exists_token_of_map_eq_cons spelled
  rw [List.cons_append, outcome_operand_not, reads others rest spelledOthers noDot noBracket]
  rfl

theorem OperandReads.minus {lexemes : List Lexeme} {e : Expr}
    (reads : OperandReads finish lexemes e) :
    OperandReads finish (.symbol .minus :: lexemes) (negation e) := by
  intro tokens rest spelled noDot noBracket
  obtain ⟨place, others, rfl, spelledOthers⟩ := exists_token_of_map_eq_cons spelled
  rw [List.cons_append, outcome_operand_minus, reads others rest spelledOthers noDot noBracket]
  rfl

theorem AccessReads.field {lexemes : List Lexeme} {base : Expr} {name : String}
    (reads : AccessReads finish lexemes base) :
    AccessReads finish (lexemes ++ [.symbol .dot, .name name]) (.field base name) := by
  intro tokens rest spelled
  obtain ⟨first, others, rfl, spelledFirst, spelledOthers⟩ := List.map_eq_append_iff.1 spelled
  obtain ⟨place, named, rfl, spelledNamed⟩ := exists_token_of_map_eq_cons spelledOthers
  obtain ⟨namePlace, last, rfl, spelledLast⟩ := exists_token_of_map_eq_cons spelledNamed
  obtain rfl : last = [] := List.map_eq_nil_iff.1 spelledLast
  rw [List.append_assoc]
  obtain ⟨inner, behind, readPrimary, sameAccessors⟩ := reads first _ spelledFirst
  exact ⟨inner, behind, readPrimary,
    sameAccessors.trans (outcome_accessors_field finish base name place namePlace rest)⟩

/-- A symbol that is not an accessor or an operator, as it closes what stands before it. -/
theorem stops_closing {sign : Symbol} {place : Position} {rest : List Token} (least : Nat)
    (closing : sign.binary? = none) (noDot : sign ≠ .dot) (noBracket : sign ≠ .openBracket) :
    Stops least (⟨.symbol sign, place⟩ :: rest) :=
  stops_of_lexeme least (by simpa using noDot) (by simpa using noBracket) closing

theorem symbol_cons (sign : Symbol) (what : Expectation) (place : Position)
    (rest : List Token) :
    symbol finish sign what (⟨.symbol sign, place⟩ :: rest) = .ok rest := by
  simp [symbol]

theorem AccessReads.element {before inside : List Lexeme} {base index : Expr}
    (readsBase : AccessReads finish before base)
    (readsIndex : LevelReads finish leastPrecedence inside index) :
    AccessReads finish (before ++ .symbol .openBracket :: (inside ++ [.symbol .closeBracket]))
      (.element base index) := by
  intro tokens rest spelled
  obtain ⟨first, others, rfl, spelledFirst, spelledOthers⟩ := List.map_eq_append_iff.1 spelled
  obtain ⟨place, bracketed, rfl, spelledBracketed⟩ := exists_token_of_map_eq_cons spelledOthers
  obtain ⟨second, closing, rfl, spelledSecond, spelledClosing⟩ :=
    List.map_eq_append_iff.1 spelledBracketed
  obtain ⟨closePlace, last, rfl, spelledLast⟩ := exists_token_of_map_eq_cons spelledClosing
  obtain rfl : last = [] := List.map_eq_nil_iff.1 spelledLast
  have readIndex :
      outcome (expression finish leastPrecedence
        (second ++ ⟨.symbol .closeBracket, closePlace⟩ :: rest)) =
          .ok (index, ⟨.symbol .closeBracket, closePlace⟩ :: rest) :=
    readsIndex.expression (by decide) spelledSecond
      (stops_closing _ rfl (by decide) (by decide))
  rw [List.append_assoc, List.cons_append, List.append_assoc, List.singleton_append]
  obtain ⟨inner, behind, readPrimary, sameAccessors⟩ := readsBase first _ spelledFirst
  refine ⟨inner, behind, readPrimary, ?_⟩
  rw [sameAccessors, outcome_accessors_element, readIndex]
  simp only [bind, Except.bind, symbol_cons]

private theorem primaryReads_atom {lexeme : Lexeme} {e : Expr} (found : atom? lexeme = some e) :
    PrimaryReads finish [lexeme] e := by
  intro tokens rest spelled
  obtain ⟨place, others, rfl, spelledOthers⟩ := exists_token_of_map_eq_cons spelled
  obtain rfl : others = [] := List.map_eq_nil_iff.1 spelledOthers
  exact outcome_primary_atom finish found

private theorem primaryReads_parenthesized {lexemes : List Lexeme} {e : Expr}
    (reads : LevelReads finish leastPrecedence lexemes e) :
    PrimaryReads finish
      (.symbol .openParenthesis :: (lexemes ++ [.symbol .closeParenthesis])) e := by
  intro tokens rest spelled
  obtain ⟨place, enclosed, rfl, spelledEnclosed⟩ := exists_token_of_map_eq_cons spelled
  obtain ⟨inside, closing, rfl, spelledInside, spelledClosing⟩ :=
    List.map_eq_append_iff.1 spelledEnclosed
  obtain ⟨closePlace, last, rfl, spelledLast⟩ := exists_token_of_map_eq_cons spelledClosing
  obtain rfl : last = [] := List.map_eq_nil_iff.1 spelledLast
  have readInside :
      outcome (expression finish leastPrecedence
        (inside ++ ⟨.symbol .closeParenthesis, closePlace⟩ :: rest)) =
          .ok (e, ⟨.symbol .closeParenthesis, closePlace⟩ :: rest) :=
    reads.expression (by decide) spelledInside
      (stops_closing _ rfl (by decide) (by decide))
  rw [List.cons_append, List.append_assoc, List.singleton_append,
    outcome_primary_parenthesis, readInside]
  simp only [bind, Except.bind, symbol_cons, Except.map]

/-! ## Expressions -/

/-- What the grammar derives at a level is read at that level. -/
theorem levelReads_of_derives {level : Nat} {lexemes : List Lexeme} {e : Expr}
    (derivation : Derives level lexemes e) : LevelReads finish level lexemes e := by
  induction derivation with
  | tighter _ inductionHypothesis => exact inductionHypothesis.loosen
  | @binary symbol op before behind left right operator _ _ readsLeft readsRight =>
      have low := levelReads_of_lt finish (precedence_lt_unary op)
      rw [low] at readsLeft ⊢
      exact readsLeft.binary operator readsRight
  | not _ reads =>
      rw [levelReads_unary] at reads ⊢
      exact reads.not
  | minus _ reads =>
      rw [levelReads_unary] at reads ⊢
      exact reads.minus
  | field _ reads =>
      rw [levelReads_access] at reads ⊢
      exact reads.field
  | element _ _ readsBase readsIndex =>
      rw [levelReads_access] at readsBase ⊢
      exact readsBase.element readsIndex
  | atom found =>
      rw [levelReads_primary]
      exact primaryReads_atom found
  | parenthesized _ reads =>
      rw [levelReads_primary]
      exact primaryReads_parenthesized reads

/-- A derivable expression is read where nothing behind it can continue it. -/
theorem expression_of_derives (finish : Position) {lexemes : List Lexeme} {e : Expr} {tokens rest : List Token}
    (derivation : Derives leastPrecedence lexemes e)
    (spelled : tokens.map Token.lexeme = lexemes) (stops : Stops leastPrecedence rest) :
    outcome (expression finish leastPrecedence (tokens ++ rest)) = .ok (e, rest) :=
  (levelReads_of_derives derivation).expression (by decide) spelled stops

/-- An expression that all tokens write is read from them. -/
theorem wholeExpression_of_derives (finish : Position) {lexemes : List Lexeme} {e : Expr} {tokens : List Token}
    (derivation : Derives leastPrecedence lexemes e)
    (spelled : tokens.map Token.lexeme = lexemes) :
    wholeExpression finish tokens = .ok e := by
  have stops : Stops leastPrecedence [] := ⟨by simp [next?], by simp [next?], by simp⟩
  have read := expression_of_derives finish derivation spelled stops
  rw [List.append_nil] at read
  cases tokens with
  | nil => simp [expression, operand, primary, outcome, Except.map] at read
  | cons token others =>
      cases found : expression finish leastPrecedence (token :: others) with
      | error fault => simp [found, outcome, Except.map] at read
      | ok parsed =>
          obtain ⟨value, left, fewer⟩ := parsed
          simp only [found, outcome, Except.map, Except.ok.injEq, Prod.mk.injEq] at read
          obtain ⟨rfl, rfl⟩ := read
          simp [wholeExpression, found]

end Rulebook.Grammar
