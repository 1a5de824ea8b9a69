import Rulebook.Proofs.Grammar.Completeness

/-!
# Completeness for rules

The readers of actions and rules find what the grammar derives.
-/

namespace Rulebook.Grammar

open Text (Position)

variable {finish : Position}

theorem exists_of_outcome_eq_ok {α : Type} {bound : Nat} {result : Except Fault (Parsed α bound)}
    {value : α} {rest : List Token} (read : outcome result = .ok (value, rest)) :
    ∃ fewer, result = .ok ⟨value, rest, fewer⟩ := by
  cases result with
  | error fault => simp [outcome, Except.map] at read
  | ok parsed =>
      obtain ⟨found, left, fewer⟩ := parsed
      simp only [outcome, Except.map, Except.ok.injEq, Prod.mk.injEq] at read
      obtain ⟨rfl, rfl⟩ := read
      exact ⟨fewer, rfl⟩

/-! ## Actions -/

theorem outcome_action_evaluated {tokens rest : List Token} {e : Expr}
    (read : outcome (expression finish leastPrecedence tokens) = .ok (e, rest))
    (noAssign : next? rest ≠ some (.symbol .assign)) :
    outcome (action finish tokens) =
      (symbol finish .semicolon .actionEnd rest).map fun last => (e, last) := by
  obtain ⟨fewer, found⟩ := exists_of_outcome_eq_ok read
  simp only [action, found]
  split
  · next same =>
      cases same
      exact absurd rfl noAssign
  · exact outcome_closedBy finish _ .semicolon .actionEnd

theorem outcome_action_assigned {tokens rest : List Token} {place : Position} {target : Expr}
    (read : outcome (expression finish leastPrecedence tokens) =
      .ok (target, ⟨.symbol .assign, place⟩ :: rest))
    (path : target.isPath = true) :
    outcome (action finish tokens) =
      outcome (expression finish leastPrecedence rest) >>= fun (value, behind) =>
        (symbol finish .semicolon .actionEnd behind).map fun last =>
          (.assign target value, last) := by
  obtain ⟨fewer, found⟩ := exists_of_outcome_eq_ok read
  simp only [action, found, path, if_true]
  cases expression finish leastPrecedence rest with
  | error fault => rfl
  | ok parsed =>
      obtain ⟨value, behind, fewerBehind⟩ := parsed
      exact outcome_closedBy finish _ .semicolon .actionEnd

private theorem action_of_derives (finish : Position) {lexemes : List Lexeme} {e : Expr}
    {tokens : List Token} (derivation : DerivesAction lexemes e)
    (spelled : tokens.map Token.lexeme = lexemes) (rest : List Token) :
    outcome (action finish (tokens ++ rest)) = .ok (e, rest) := by
  have stopsSemicolon (place : Position) :
      Stops leastPrecedence (⟨.symbol .semicolon, place⟩ :: rest) :=
    stops_closing _ rfl (by decide) (by decide)
  cases derivation with
  | evaluated derivation =>
      obtain ⟨inside, closing, rfl, spelledInside, spelledClosing⟩ :=
        List.map_eq_append_iff.1 spelled
      obtain ⟨place, last, rfl, spelledLast⟩ := exists_token_of_map_eq_cons spelledClosing
      obtain rfl : last = [] := List.map_eq_nil_iff.1 spelledLast
      have read := expression_of_derives finish derivation spelledInside (stopsSemicolon place)
      rw [List.append_assoc, List.singleton_append, outcome_action_evaluated read (by simp [next?]),
        symbol_cons]
      rfl
  | assigned derivesTarget path derivesValue =>
      obtain ⟨first, others, rfl, spelledFirst, spelledOthers⟩ :=
        List.map_eq_append_iff.1 spelled
      obtain ⟨place, written, rfl, spelledWritten⟩ := exists_token_of_map_eq_cons spelledOthers
      obtain ⟨second, closing, rfl, spelledSecond, spelledClosing⟩ :=
        List.map_eq_append_iff.1 spelledWritten
      obtain ⟨closePlace, last, rfl, spelledLast⟩ := exists_token_of_map_eq_cons spelledClosing
      obtain rfl : last = [] := List.map_eq_nil_iff.1 spelledLast
      have stopsAssign (behind : List Token) :
          Stops leastPrecedence (⟨.symbol .assign, place⟩ :: behind) :=
        stops_closing _ rfl (by decide) (by decide)
      have readTarget := expression_of_derives finish derivesTarget spelledFirst
        (stopsAssign (second ++ ⟨.symbol .semicolon, closePlace⟩ :: rest))
      have readValue :=
        expression_of_derives finish derivesValue spelledSecond (stopsSemicolon closePlace)
      rw [List.append_assoc, List.cons_append, List.append_assoc, List.singleton_append,
        outcome_action_assigned readTarget path, readValue]
      simp only [bind, Except.bind, symbol_cons, Except.map]

private theorem not_closeBrace_of_action {token : Token} {tokens rest : List Token} {e : Expr}
    (read : outcome (action finish (token :: tokens)) = .ok (e, rest)) :
    token.lexeme ≠ .symbol .closeBrace := by
  obtain ⟨lexeme, place⟩ := token
  rintro rfl
  simp [action, expression, operand, primary, outcome, Except.map] at read

private theorem actions_of_derives (finish : Position) (name : String) {lexemes : List Lexeme}
    {es : List Expr} {tokens : List Token} {place : Position} {rest : List Token}
    (derivation : DerivesActions lexemes es) (spelled : tokens.map Token.lexeme = lexemes) :
    actions finish name (tokens ++ ⟨.symbol .closeBrace, place⟩ :: rest) =
      .ok (es, ⟨.symbol .closeBrace, place⟩ :: rest) := by
  induction derivation generalizing tokens with
  | nil =>
      obtain rfl : tokens = [] := List.map_eq_nil_iff.1 spelled
      rw [List.nil_append, actions, if_pos rfl]
  | @cons first others e es derivesFirst _ inductionHypothesis =>
      obtain ⟨firstTokens, otherTokens, rfl, spelledFirst, spelledOthers⟩ :=
        List.map_eq_append_iff.1 spelled
      have readOthers := inductionHypothesis spelledOthers
      have readFirst := action_of_derives finish derivesFirst spelledFirst
        (otherTokens ++ ⟨.symbol .closeBrace, place⟩ :: rest)
      rw [List.append_assoc]
      cases firstTokens with
      | nil =>
          exact absurd spelledFirst.symm derivesFirst.ne_nil
      | cons token tokens =>
          rw [List.cons_append] at readFirst ⊢
          have noBrace := not_closeBrace_of_action readFirst
          obtain ⟨fewer, found⟩ := exists_of_outcome_eq_ok readFirst
          rw [actions, if_neg noBrace, found]
          simp only [readOthers, Except.map]

/-! ## Rules -/

theorem keyword_cons (word : Keyword) (what : Expectation) (place : Position)
    (rest : List Token) :
    keyword finish word what (⟨.keyword word, place⟩ :: rest) = .ok rest := by
  simp [keyword]

private theorem condition_of_derives (finish : Position) (name : String) {lexemes : List Lexeme} {e : Expr}
    {tokens : List Token} {whenPlace thenPlace : Position} {rest : List Token}
    (derivation : Derives leastPrecedence lexemes e)
    (spelled : tokens.map Token.lexeme = lexemes) :
    condition finish name
      (⟨.keyword .whenWord, whenPlace⟩ :: (tokens ++ ⟨.keyword .thenWord, thenPlace⟩ :: rest)) =
        .ok (e, rest) := by
  have stops : Stops leastPrecedence (⟨.keyword .thenWord, thenPlace⟩ :: rest) :=
    stops_of_lexeme _ (by simp) (by simp) rfl
  obtain ⟨fewer, found⟩ :=
    exists_of_outcome_eq_ok (expression_of_derives finish derivation spelled stops)
  simp only [condition, keyword_cons, bind, Except.bind, found]
  simp [nextIs, next?]

theorem description_omitted {tokens : List Token}
    (noText : ∀ text, next? tokens ≠ some (.string text)) : description tokens = (none, tokens) := by
  rw [description.eq_def]
  split
  · exact absurd rfl (noText _)
  · rfl

theorem description_lexemes {text : Option Text.Quotable} {tokens rest : List Token}
    (spelled : tokens.map Token.lexeme = descriptionLexemes text)
    (noString : ∀ quotable, next? rest ≠ some (.string quotable)) :
    description (tokens ++ rest) = (text, rest) := by
  cases text with
  | some quotable =>
      obtain ⟨place, last, rfl, spelledLast⟩ := exists_token_of_map_eq_cons spelled
      obtain rfl : last = [] := List.map_eq_nil_iff.1 spelledLast
      rfl
  | none =>
      obtain rfl : tokens = [] := List.map_eq_nil_iff.1 spelled
      exact description_omitted noString

private theorem salience_of_derives (finish : Position) {lexemes : List Lexeme} {n : Int}
    {tokens : List Token} {place : Position} {rest : List Token}
    (derivation : DerivesSalience lexemes n) (spelled : tokens.map Token.lexeme = lexemes) :
    salience finish (tokens ++ ⟨.symbol .openBrace, place⟩ :: rest) =
      .ok (n, ⟨.symbol .openBrace, place⟩ :: rest) := by
  cases derivation with
  | omitted =>
      obtain rfl : tokens = [] := List.map_eq_nil_iff.1 spelled
      rfl
  | positive whole =>
      obtain ⟨wordPlace, others, rfl, spelledOthers⟩ := exists_token_of_map_eq_cons spelled
      obtain ⟨numberPlace, last, rfl, spelledLast⟩ := exists_token_of_map_eq_cons spelledOthers
      obtain rfl : last = [] := List.map_eq_nil_iff.1 spelledLast
      simp [salience, salienceDigits_of_toNat? finish whole, Except.map]
  | negative whole =>
      obtain ⟨wordPlace, others, rfl, spelledOthers⟩ := exists_token_of_map_eq_cons spelled
      obtain ⟨signPlace, digits, rfl, spelledDigits⟩ := exists_token_of_map_eq_cons spelledOthers
      obtain ⟨numberPlace, last, rfl, spelledLast⟩ := exists_token_of_map_eq_cons spelledDigits
      obtain rfl : last = [] := List.map_eq_nil_iff.1 spelledLast
      simp [salience, salienceDigits_of_toNat? finish whole, Except.map]

private theorem no_string_of_salience {lexemes : List Lexeme} {n : Int} {tokens : List Token}
    (derivation : DerivesSalience lexemes n) (spelled : tokens.map Token.lexeme = lexemes)
    (place : Position) (rest : List Token) (quotable : Text.Quotable) :
    next? (tokens ++ ⟨.symbol .openBrace, place⟩ :: rest) ≠ some (.string quotable) := by
  cases derivation with
  | omitted =>
      obtain rfl : tokens = [] := List.map_eq_nil_iff.1 spelled
      simp [next?]
  | positive _ =>
      obtain ⟨wordPlace, others, rfl, _⟩ := exists_token_of_map_eq_cons spelled
      simp [next?]
  | negative _ =>
      obtain ⟨wordPlace, others, rfl, _⟩ := exists_token_of_map_eq_cons spelled
      simp [next?]

/-- A rule that all tokens write is read from them. -/
theorem wholeRule_of_derives (finish : Position) {lexemes : List Lexeme} {r : Rule}
    {tokens : List Token} (derivation : DerivesRule lexemes r)
    (spelled : tokens.map Token.lexeme = lexemes) : wholeRule finish tokens = .ok r := by
  obtain ⟨derivesSalience, derivesCondition, derivesActions, nonempty⟩ := derivation
  obtain ⟨rulePlace, behindRule, rfl, spelledBehindRule⟩ := exists_token_of_map_eq_cons spelled
  obtain ⟨namePlace, behindName, rfl, spelledBehindName⟩ :=
    exists_token_of_map_eq_cons spelledBehindRule
  obtain ⟨descriptionTokens, behindDescription, rfl, spelledDescription, spelledBehindDescription⟩ :=
    List.map_eq_append_iff.1 spelledBehindName
  obtain ⟨salienceTokens, behindSalience, rfl, spelledSalience, spelledBehindSalience⟩ :=
    List.map_eq_append_iff.1 spelledBehindDescription
  obtain ⟨openPlace, behindOpen, rfl, spelledBehindOpen⟩ :=
    exists_token_of_map_eq_cons spelledBehindSalience
  obtain ⟨whenPlace, behindWhen, rfl, spelledBehindWhen⟩ :=
    exists_token_of_map_eq_cons spelledBehindOpen
  obtain ⟨conditionTokens, behindCondition, rfl, spelledCondition, spelledBehindCondition⟩ :=
    List.map_eq_append_iff.1 spelledBehindWhen
  obtain ⟨thenPlace, behindThen, rfl, spelledBehindThen⟩ :=
    exists_token_of_map_eq_cons spelledBehindCondition
  obtain ⟨actionTokens, behindActions, rfl, spelledActions, spelledBehindActions⟩ :=
    List.map_eq_append_iff.1 spelledBehindThen
  obtain ⟨closePlace, behindClose, rfl, spelledBehindClose⟩ :=
    exists_token_of_map_eq_cons spelledBehindActions
  obtain rfl : behindClose = [] := List.map_eq_nil_iff.1 spelledBehindClose
  have noString := no_string_of_salience derivesSalience spelledSalience openPlace
    (⟨.keyword .whenWord, whenPlace⟩ :: (conditionTokens ++ ⟨.keyword .thenWord, thenPlace⟩ ::
      (actionTokens ++ [⟨.symbol .closeBrace, closePlace⟩])))
  have notEmpty : r.actions.isEmpty = false := by
    cases actionsCase : r.actions with
    | nil => exact absurd actionsCase nonempty
    | cons first others => rfl
  simp only [wholeRule, rule, keyword_cons, ruleName, bind, Except.bind,
    description_lexemes spelledDescription noString,
    salience_of_derives finish derivesSalience spelledSalience, symbol_cons,
    condition_of_derives finish r.name derivesCondition spelledCondition,
    actions_of_derives finish r.name derivesActions spelledActions, notEmpty, List.tail_cons,
    Bool.false_eq_true, if_false]

end Rulebook.Grammar
