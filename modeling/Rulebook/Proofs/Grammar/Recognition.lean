import Rulebook.Proofs.Grammar.Completeness
import Rulebook.Proofs.Grammar.Exactness

/-!
# Recognition of expressions

The readers of expressions take what the grammar derives, and nothing else. Each of them either
gives an expression that the lexemes in front of the split write, at the level of the reader, or
blames a token where these lexemes still begin such an expression. The loop over operators, which
climbs binding powers, keeps in step with the levels of the grammar because the operator behind a
left operand never binds stronger than the level at which that operand is derived.
-/

namespace Rulebook.Grammar

open Text (Position)

/-- No expression is written by nothing. -/
theorem Derives.ne_nil {level : Nat} {written : List Lexeme} {e : Expr}
    (derivation : Derives level written e) : written ≠ [] := by
  induction derivation with
  | tighter _ inductionHypothesis => exact inductionHypothesis
  | _ => simp

theorem Stops.congr {least : Nat} {rest other : List Token} (stops : Stops least rest)
    (same : other.head? = rest.head?) : Stops least other :=
  ⟨next?_congr same ▸ stops.noDot, next?_congr same ▸ stops.noBracket, same ▸ stops.weak⟩

/-! ## What is said of a reader of expressions -/

/-- Whether the tokens that were taken write an expression at a level, behind lexemes that were read
before, and the tokens behind cannot go on with it. -/
def Written (level : Nat) (before : List Lexeme) (ends : List Token → Prop)
    (first rest : List Token) (e : Expr) : Prop :=
  Derives level (before ++ lexemes first) e ∧ ends rest

/-- Whether a fault is that something else has to stand behind the tokens that were taken, while
those begin an expression at a level, behind lexemes that were read before. -/
def Begun (finish : Position) (level : Nat) (before : List Lexeme) (first rest : List Token)
    (fault : Fault) : Prop :=
  (∃ what, fault = missing finish what rest) ∧
    ∃ completion e, Derives level (before ++ lexemes first ++ completion) e

/-- Whether a reader takes the expressions of a level, as far as `ends` tells where they end. -/
abbrev Recognizes (finish : Position) (level : Nat) (before : List Lexeme)
    (ends : List Token → Prop) (reader : Reader Expr) (tokens : List Token) : Prop :=
  ExactOn (Written level before ends) (Begun finish level before) reader tokens

abbrev RecognizesExpression (finish : Position) (least : Nat) (tokens : List Token) : Prop :=
  Recognizes finish least [] (Stops least) (fun tokens => outcome (expression finish least tokens))
    tokens

variable {finish : Position} {level : Nat} {before : List Lexeme} {ends : List Token → Prop}
  {tokens : List Token}

/-- What was read before may also be counted among what is taken. -/
theorem Written.shift {first more rest : List Token} {e : Expr}
    (written : Written level (before ++ lexemes first) ends more rest e) :
    Written level before ends (first ++ more) rest e := by
  obtain ⟨derivation, isEnd⟩ := written
  rw [List.append_assoc, ← List.map_append] at derivation
  exact ⟨derivation, isEnd⟩

theorem Begun.shift {first more rest : List Token} {fault : Fault}
    (begun : Begun finish level (before ++ lexemes first) more rest fault) :
    Begun finish level before (first ++ more) rest fault := by
  obtain ⟨isMissing, completion, e, derivation⟩ := begun
  rw [List.append_assoc before, ← List.map_append] at derivation
  exact ⟨isMissing, completion, e, derivation⟩

theorem Recognizes.shift {first rest : List Token} {reader : Reader Expr}
    (recognizes : Recognizes finish level (before ++ lexemes first) ends reader rest) :
    ExactOn (fun more => Written level before ends (first ++ more))
      (fun more => Begun finish level before (first ++ more)) reader rest :=
  recognizes.mono (fun _ _ _ => Written.shift) (fun _ _ _ => Begun.shift)

theorem Recognizes.after (first : List Token) {rest : List Token} {reader next : Reader Expr}
    (goesOn : ∀ other, other.head? = rest.head? → reader (first ++ other) = next other)
    (recognizes : Recognizes finish level (before ++ lexemes first) ends next rest) :
    Recognizes finish level before ends reader (first ++ rest) :=
  ExactOn.after first goesOn recognizes.shift

theorem written_nil {e : Expr} (derivation : Derives level before e) (isEnd : ends tokens) :
    Written level before ends [] tokens e :=
  ⟨(List.append_nil before).symm ▸ derivation, isEnd⟩

private theorem begun_missing (what : Expectation) {completion : List Lexeme} {e : Expr}
    (derivation : Derives level (before ++ completion) e) :
    Begun finish level before [] tokens (missing finish what tokens) :=
  ⟨⟨what, rfl⟩, completion, e, (List.append_nil before).symm ▸ derivation⟩

/-! ## Literals, names and parentheses -/

theorem recognizes_primary
    (shorter : ∀ inner : List Token, inner.length < tokens.length →
      RecognizesExpression finish leastPrecedence inner) :
    Recognizes finish primaryLevel [] (fun _ => True)
      (fun tokens => outcome (primary finish tokens)) tokens := by
  have literal : Derives primaryLevel [.keyword .trueWord] (.bool true) := .atom rfl
  by_cases isParenthesis : next? tokens = some (.symbol .openParenthesis)
  · obtain ⟨place, rest, rfl⟩ := exists_of_next?_eq_some isParenthesis
    refine Recognizes.after [⟨.symbol .openParenthesis, place⟩]
      (fun other _ => outcome_primary_parenthesis finish place other) ?_
    refine ExactOn.bind
      (fun e behind =>
        (symbol finish .closeParenthesis .parenthesisEnd behind).map fun last => (e, last))
      (shorter rest (Nat.lt_succ_self _)) ?_ ?_
    · rintro first last fault ⟨isMissing, completion, e, derivation⟩
      refine ⟨isMissing, completion ++ [.symbol .closeParenthesis], e, ?_⟩
      simpa using derivation.parenthesized
    · rintro first last e split ⟨derivation, -⟩
      refine ExactOn.closing (expects_symbol finish _ _) e ?_ ?_
      · refine ⟨⟨_, rfl⟩, [.symbol .closeParenthesis], e, ?_⟩
        simpa using derivation.parenthesized
      · intro closePlace behind
        refine ⟨?_, trivial⟩
        simpa using derivation.parenthesized
  · cases found : tokens.head?.bind fun token => atom? token.lexeme with
    | none =>
        refine .of_error ?_ (begun_missing .expression literal)
        intro other same
        rw [← missing_congr finish .expression same]
        refine outcome_primary_else finish ?_ (next?_congr same ▸ isParenthesis)
        intro token member
        rw [same, Option.mem_def] at member
        simpa [member] using found
    | some e =>
        obtain ⟨token, isHead, isAtom⟩ := Option.bind_eq_some_iff.1 found
        obtain ⟨rest, rfl⟩ := List.head?_eq_some_iff.1 isHead
        exact .takes [token] rest e rfl ⟨.atom isAtom, trivial⟩
          fun other _ => outcome_primary_atom finish isAtom

/-! ## Fields and indices -/

theorem recognizes_accessors {base : Expr} (derivation : Derives accessLevel before base)
    (shorter : ∀ inner : List Token, inner.length < tokens.length →
      RecognizesExpression finish leastPrecedence inner) :
    Recognizes finish accessLevel before (Stops accessLevel)
      (fun tokens => outcome (accessors finish base tokens)) tokens := by
  induction size : tokens.length using Nat.strongRecOn generalizing tokens before base with
  | ind size inductionHypothesis =>
  subst size
  by_cases isDot : next? tokens = some (.symbol .dot)
  · obtain ⟨place, rest, rfl⟩ := exists_of_next?_eq_some isDot
    by_cases isNamed : ∃ name, next? rest = some (.name name)
    · obtain ⟨name, named⟩ := isNamed
      obtain ⟨namePlace, behind, rfl⟩ := exists_of_next?_eq_some named
      have fewer : behind.length < (⟨.symbol .dot, place⟩ :: ⟨.name name, namePlace⟩ ::
          behind : List Token).length := Nat.lt_succ_of_lt (Nat.lt_succ_self _)
      refine Recognizes.after [⟨.symbol .dot, place⟩, ⟨.name name, namePlace⟩]
        (fun other _ => outcome_accessors_field finish base name place namePlace other) ?_
      exact inductionHypothesis behind.length fewer derivation.field
        (fun inner isShorter => shorter inner (Nat.lt_trans isShorter fewer)) rfl
    · have noName : ∀ name, next? rest ≠ some (.name name) := not_exists.1 isNamed
      refine .stops [⟨.symbol .dot, place⟩] rest (missing finish .fieldName rest) rfl ?_ ?_
      · refine ⟨⟨_, rfl⟩, [.name "field"], .field base "field", ?_⟩
        simpa using derivation.field
      · intro other same
        rw [← missing_congr finish .fieldName same]
        exact outcome_accessors_unnamed finish fun name => next?_congr same ▸ noName name
  · by_cases isBracket : next? tokens = some (.symbol .openBracket)
    · obtain ⟨place, rest, rfl⟩ := exists_of_next?_eq_some isBracket
      refine Recognizes.after [⟨.symbol .openBracket, place⟩]
        (fun other _ => outcome_accessors_element finish base place other) ?_
      refine ExactOn.bind
        (fun index behind => symbol finish .closeBracket .indexEnd behind >>= fun last =>
          outcome (accessors finish (.element base index) last))
        (shorter rest (Nat.lt_succ_self _)) ?_ ?_
      · rintro first last fault ⟨isMissing, completion, index, inside⟩
        refine ⟨isMissing, completion ++ [.symbol .closeBracket], .element base index, ?_⟩
        simpa using derivation.element inside
      · rintro first last index split ⟨inside, -⟩
        have whole : Derives accessLevel
            (before ++ lexemes [⟨.symbol .openBracket, place⟩] ++ lexemes first ++
              [.symbol .closeBracket]) (.element base index) := by
          simpa using derivation.element inside
        refine ExactOn.expect (expects_symbol finish .closeBracket .indexEnd) ?_ ?_
        · refine ⟨⟨_, rfl⟩, [.symbol .closeBracket], .element base index, ?_⟩
          simpa using whole
        · rintro closePlace behind rfl
          have fewer : behind.length < (⟨.symbol .openBracket, place⟩ :: rest).length := by
            rw [split]
            simp only [List.length_cons, List.length_append]
            omega
          have recognized : Recognizes finish accessLevel
              (before ++ lexemes [⟨.symbol .openBracket, place⟩] ++ lexemes first ++
                lexemes [⟨.symbol .closeBracket, closePlace⟩]) (Stops accessLevel)
              (fun tokens => outcome (accessors finish (.element base index) tokens)) behind :=
            inductionHypothesis behind.length fewer whole
              (fun inner isShorter => shorter inner (Nat.lt_trans isShorter fewer)) rfl
          exact recognized.shift.mono (fun _ _ _ => Written.shift) (fun _ _ _ => Begun.shift)
    · refine .of_ok base ?_ (written_nil derivation ?_)
      · intro other same
        exact outcome_accessors_else finish (next?_congr same ▸ isDot)
          (next?_congr same ▸ isBracket)
      · exact ⟨isDot, isBracket, fun _ _ op _ => Nat.lt_succ_of_lt (precedence_lt_unary op)⟩

/-! ## Operators before one operand -/

theorem recognizes_operand_else (noNot : next? tokens ≠ some (.symbol .not))
    (noMinus : next? tokens ≠ some (.symbol .minus))
    (shorter : ∀ inner : List Token, inner.length < tokens.length →
      RecognizesExpression finish leastPrecedence inner) :
    Recognizes finish UnaryOp.precedence [] (Stops accessLevel)
      (fun tokens => outcome (operand finish tokens)) tokens := by
  have loosened {written : List Lexeme} {e : Expr} (derivation : Derives accessLevel written e) :
      Derives UnaryOp.precedence written e := derivation.tighter
  refine ExactOn.congr ?_ fun other same =>
    outcome_operand_else finish (next?_congr same ▸ noNot) (next?_congr same ▸ noMinus)
  refine ExactOn.bind (fun base rest => outcome (accessors finish base rest))
    (recognizes_primary shorter) ?_ ?_
  · rintro first rest fault ⟨isMissing, completion, e, derivation⟩
    exact ⟨isMissing, completion, e, loosened derivation.tighter⟩
  · rintro first rest base rfl ⟨derivation, -⟩
    have shorterBehind (inner : List Token) (isShorter : inner.length < rest.length) :
        RecognizesExpression finish leastPrecedence inner := by
      refine shorter inner (Nat.lt_of_lt_of_le isShorter ?_)
      rw [List.length_append]
      exact Nat.le_add_left _ _
    have recognized : Recognizes finish accessLevel ([] ++ lexemes first) (Stops accessLevel)
        (fun tokens => outcome (accessors finish base tokens)) rest :=
      recognizes_accessors derivation.tighter shorterBehind
    refine recognized.shift.mono ?_ ?_
    · rintro more last e ⟨derivation, isEnd⟩
      exact ⟨loosened derivation, isEnd⟩
    · rintro more last fault ⟨isMissing, completion, e, derivation⟩
      exact ⟨isMissing, completion, e, loosened derivation⟩

/-- An operator before an operand makes another operand of it. -/
theorem Recognizes.unary {sign : Symbol} {f : Expr → Expr} {place : Position} {rest : List Token}
    (grammar : ∀ {written : List Lexeme} {e : Expr}, Derives UnaryOp.precedence written e →
      Derives UnaryOp.precedence (.symbol sign :: written) (f e))
    (reads : ∀ tokens, outcome (operand finish (⟨.symbol sign, place⟩ :: tokens)) =
      (outcome (operand finish tokens)).map fun (e, behind) => (f e, behind))
    (recognizes : Recognizes finish UnaryOp.precedence [] ends
      (fun tokens => outcome (operand finish tokens)) rest) :
    Recognizes finish UnaryOp.precedence [] ends (fun tokens => outcome (operand finish tokens))
      (⟨.symbol sign, place⟩ :: rest) := by
  refine Recognizes.after [⟨.symbol sign, place⟩] (fun other _ => reads other) ?_
  refine ExactOn.map recognizes ?_ ?_
  · rintro first last e ⟨derivation, isEnd⟩
    exact ⟨grammar derivation, isEnd⟩
  · rintro first last fault ⟨isMissing, completion, e, derivation⟩
    exact ⟨isMissing, completion, f e, grammar derivation⟩

theorem recognizes_operand
    (shorter : ∀ inner : List Token, inner.length < tokens.length →
      RecognizesExpression finish leastPrecedence inner) :
    Recognizes finish UnaryOp.precedence [] (Stops accessLevel)
      (fun tokens => outcome (operand finish tokens)) tokens := by
  induction tokens with
  | nil => exact recognizes_operand_else (by simp [next?]) (by simp [next?]) shorter
  | cons token rest inductionHypothesis =>
      obtain ⟨lexeme, place⟩ := token
      have recognizedBehind := inductionHypothesis fun inner isShorter =>
        shorter inner (Nat.lt_succ_of_lt isShorter)
      by_cases isNot : lexeme = .symbol .not
      · subst isNot
        exact recognizedBehind.unary Derives.not (outcome_operand_not finish place)
      · by_cases isMinus : lexeme = .symbol .minus
        · subst isMinus
          exact recognizedBehind.unary Derives.minus (outcome_operand_minus finish place)
        · exact recognizes_operand_else (by simpa [next?] using isNot)
            (by simpa [next?] using isMinus) shorter

/-! ## Operators between two operands -/

private theorem exists_symbol_of_operator? {token : Token} {op : BinaryOp}
    (found : operator? token = some op) :
    ∃ sign place, token = ⟨.symbol sign, place⟩ ∧ sign.binary? = some op := by
  obtain ⟨lexeme, place⟩ := token
  cases lexeme with
  | symbol sign => exact ⟨sign, place, rfl, found⟩
  | _ => cases found

/-- Tokens that do not end an expression at a level, but at a higher one, go on with an operator. -/
theorem exists_operator_of_not_stops {least : Nat} (goesOn : ¬ Stops least tokens)
    (stops : Stops level tokens) :
    ∃ sign place rest op, tokens = ⟨.symbol sign, place⟩ :: rest ∧ sign.binary? = some op ∧
      least ≤ op.precedence ∧ op.precedence < level := by
  refine Classical.byContradiction fun noOperator => goesOn ?_
  refine ⟨stops.noDot, stops.noBracket, fun token member op found => ?_⟩
  obtain ⟨rest, rfl⟩ := List.head?_eq_some_iff.1 member
  obtain ⟨sign, place, rfl, isOperator⟩ := exists_symbol_of_operator? found
  have weak : op.precedence < level := stops.weak _ rfl op found
  exact Nat.lt_of_not_le fun strong =>
    noOperator ⟨sign, place, rest, op, rfl, isOperator, strong, weak⟩

/-- The operator behind a left operand never binds stronger than the level at which the operand is
derived: where it does not end the expression, it can be applied to this operand. -/
theorem recognizes_operators {least : Nat} {left : Expr} (derivation : Derives level before left)
    (low : least ≤ level) (stops : Stops (level + 1) tokens)
    (shorter : ∀ inner : List Token, inner.length < tokens.length →
      ∀ least ≤ UnaryOp.precedence, RecognizesExpression finish least inner) :
    Recognizes finish least before (Stops least)
      (fun tokens => outcome (operators finish least left tokens)) tokens := by
  induction size : tokens.length using Nat.strongRecOn
    generalizing tokens before level left with
  | ind size inductionHypothesis =>
  subst size
  by_cases ended : Stops least tokens
  · exact .of_ok left (fun other same => outcome_operators_of_stops (ended.congr same))
      (written_nil (derivation.loosen low) ended)
  · obtain ⟨sign, place, rest, op, rfl, isOperator, strong, weak⟩ :=
      exists_operator_of_not_stops ended stops
    have found : operator? ⟨.symbol sign, place⟩ = some op := isOperator
    have leftOperand : Derives op.precedence before left :=
      derivation.loosen (Nat.le_of_lt_succ weak)
    refine Recognizes.after [⟨.symbol sign, place⟩] (fun other _ =>
      (outcome_operators_some finish found).trans (if_neg (Nat.not_lt.2 strong))) ?_
    refine ExactOn.bind
      (fun right behind => outcome (operators finish least (.binary op left right) behind))
      (shorter rest (Nat.lt_succ_self _) (op.precedence + 1) (precedence_lt_unary op)) ?_ ?_
    · rintro first last fault ⟨isMissing, completion, right, rightOperand⟩
      refine ⟨isMissing, completion, .binary op left right, ?_⟩
      simpa using (Derives.binary isOperator leftOperand rightOperand).loosen strong
    · rintro first last right rfl ⟨rightOperand, stopsRight⟩
      have fewer : last.length < (⟨.symbol sign, place⟩ :: (first ++ last)).length := by
        simp only [List.length_cons, List.length_append]
        omega
      have whole : Derives op.precedence
          (before ++ lexemes [⟨.symbol sign, place⟩] ++ lexemes first) (.binary op left right) := by
        simpa using Derives.binary isOperator leftOperand rightOperand
      have recognized : Recognizes finish least
          (before ++ lexemes [⟨.symbol sign, place⟩] ++ lexemes first) (Stops least)
          (fun tokens => outcome (operators finish least (.binary op left right) tokens)) last :=
        inductionHypothesis last.length fewer whole strong stopsRight
          (fun inner isShorter => shorter inner (Nat.lt_trans isShorter fewer)) rfl
      exact recognized.shift

/-! ## Expressions -/

/-- The reader of expressions takes the expressions of each level between two operands. -/
theorem recognizes_expression {least : Nat} (low : least ≤ UnaryOp.precedence) :
    RecognizesExpression finish least tokens := by
  induction size : tokens.length using Nat.strongRecOn generalizing tokens least with
  | ind size inductionHypothesis =>
  subst size
  have shorter (inner : List Token) (isShorter : inner.length < tokens.length) (least : Nat)
      (low : least ≤ UnaryOp.precedence) : RecognizesExpression finish least inner :=
    inductionHypothesis inner.length isShorter low rfl
  refine ExactOn.congr ?_ fun other _ => outcome_expression finish least other
  refine ExactOn.bind (fun left rest => outcome (operators finish least left rest))
    (recognizes_operand fun inner isShorter => shorter inner isShorter _ (by decide)) ?_ ?_
  · rintro first rest fault ⟨isMissing, completion, e, derivation⟩
    exact ⟨isMissing, completion, e, derivation.loosen low⟩
  · rintro first rest left rfl ⟨derivation, stops⟩
    have recognized : Recognizes finish least ([] ++ lexemes first) (Stops least)
        (fun tokens => outcome (operators finish least left tokens)) rest := by
      refine recognizes_operators derivation low stops fun inner isShorter => shorter inner ?_
      rw [List.length_append]
      exact Nat.lt_of_lt_of_le isShorter (Nat.le_add_left _ _)
    exact recognized.shift

/-- What is read as an expression derives it. -/
theorem derives_of_wholeExpression {e : Expr} (read : wholeExpression finish tokens = .ok e) :
    Derives leastPrecedence (lexemes tokens) e := by
  have taken : outcome (expression finish leastPrecedence tokens) = .ok (e, []) := by
    rw [wholeExpression.eq_def] at read
    split at read
    · cases read
    · split at read
      · cases read
      · next found =>
          cases read
          rw [found]
          rfl
      · split at read <;> cases read
  have recognized : RecognizesExpression finish leastPrecedence tokens :=
    recognizes_expression (by decide)
  obtain ⟨first, split, derivation, _⟩ := recognized.accepts_of_eq_ok taken
  rw [split, List.append_nil]
  exact derivation

/-- An expression is read from tokens exactly where the grammar derives it from their lexemes, and
it derives one expression at most. -/
theorem wholeExpression_eq_ok_iff_derives (finish : Position) (tokens : List Token) :
    (∀ e, wholeExpression finish tokens = .ok e ↔
      Derives leastPrecedence (tokens.map Token.lexeme) e) ∧
    (∀ e other, Derives leastPrecedence (tokens.map Token.lexeme) e →
      Derives leastPrecedence (tokens.map Token.lexeme) other → e = other) := by
  refine ⟨fun e => ⟨derives_of_wholeExpression, fun derivation =>
    wholeExpression_of_derives finish derivation rfl⟩, fun e other derivation derivationOther => ?_⟩
  have read : wholeExpression finish tokens = .ok e :=
    wholeExpression_of_derives finish derivation rfl
  have readOther : wholeExpression finish tokens = .ok other :=
    wholeExpression_of_derives finish derivationOther rfl
  exact Except.ok.inj (read.symm.trans readOther)

end Rulebook.Grammar
