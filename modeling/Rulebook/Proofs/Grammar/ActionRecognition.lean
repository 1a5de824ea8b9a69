import Rulebook.Proofs.Grammar.Opening

/-!
# Recognition of actions

Readers of parts of a rule, behind lexemes that were read before. Where such a reader stops, these
lexemes and the tokens that it took begin a rule; where it does not, they write its result. Here are
the steps from which the readers of rules are built, and the reader of actions.
-/

namespace Rulebook.Grammar

open Text (Position Quotable)

/-- The place of what comes next depends only on the first token. -/
theorem here_congr (finish : Position) {tokens other : List Token}
    (same : other.head? = tokens.head?) : here finish other = here finish tokens :=
  congrArg Fault.place (missing_congr finish .expression same)

/-! ## What the readers blame -/

/-- What is blamed behind lexemes that were read before. With the tokens that were taken they begin
a rule, and the place is that of the token behind; only an assignment to what is no path is blamed
at the start of its action. A salience with too many digits is the one fault that is none of
syntax. -/
inductive Blames (finish : Position) (past : List Lexeme) (first rest : List Token) : Fault → Prop
  | next {fault : Fault} :
      BeginsRule (past ++ lexemes first) →
      fault.cause ≠ .targetNoPath →
      fault.isSyntax = true →
      fault.place = here finish rest →
      Blames finish past first rest fault
  | overflow {numeral : Numeral} :
      BeginsRule (past ++ lexemes first) →
      EndsInSalience (past ++ lexemes first) →
      next? rest = some (.number numeral) →
      numeral.isOverlong = true →
      Blames finish past first rest ⟨.tooManyDigits numeral.whole.length, here finish rest⟩
  | target {opening action : List Token} {opened : Rule} {target : Expr} :
      first = opening ++ action →
      DerivesOpening (past ++ lexemes opening) opened →
      Derives leastPrecedence (lexemes action) target →
      target.isPath = false →
      next? rest = some (.symbol .assign) →
      Blames finish past first rest ⟨.targetNoPath, here finish (action ++ rest)⟩

section Blamed

variable {finish : Position} {past : List Lexeme} {first more rest tokens : List Token}
  {fault : Fault}

theorem Blames.shift (blames : Blames finish (past ++ lexemes first) more rest fault) :
    Blames finish past (first ++ more) rest fault := by
  cases blames with
  | next begins cause isSyntax place =>
      rw [List.append_assoc, ← List.map_append] at begins
      exact .next begins cause isSyntax place
  | overflow begins ends isNumber long =>
      rw [List.append_assoc, ← List.map_append] at begins ends
      exact .overflow begins ends isNumber long
  | target split derivesOpening derivation noPath isAssign =>
      rw [List.append_assoc, ← List.map_append] at derivesOpening
      exact .target (by rw [split, List.append_assoc]) derivesOpening derivation noPath isAssign

theorem blames_next (begins : BeginsRule past) (cause : fault.cause ≠ .targetNoPath)
    (isSyntax : fault.isSyntax = true) (place : fault.place = here finish tokens) :
    Blames finish past [] tokens fault :=
  .next ((List.append_nil past).symm ▸ begins) cause isSyntax place

theorem blames_missing (begins : BeginsRule past) (what : Expectation) :
    Blames finish past [] tokens (missing finish what tokens) :=
  blames_next begins Cause.noConfusion rfl rfl

end Blamed

/-! ## What is said of a reader of a part of a rule -/

/-- Whether a reader, behind lexemes that were read before, takes tokens that with these lexemes
write its result. -/
abbrev Reads {α : Type} (finish : Position) (writes : List Lexeme → α → Prop) (past : List Lexeme)
    (reader : Reader α) (tokens : List Token) : Prop :=
  ExactOn (fun first _ value => writes (past ++ lexemes first) value) (Blames finish past) reader
    tokens

section Readers

variable {α β : Type} {finish : Position} {past : List Lexeme} {tokens : List Token}
  {writes : List Lexeme → β → Prop}

theorem Reads.shift {first rest : List Token} {reader : Reader β}
    (reads : Reads finish writes (past ++ lexemes first) reader rest) :
    ExactOn (fun more _ value => writes (past ++ lexemes (first ++ more)) value)
      (fun more => Blames finish past (first ++ more)) reader rest := by
  refine reads.mono ?_ fun _ _ _ => Blames.shift
  intro more last value written
  rwa [List.append_assoc, ← List.map_append] at written

theorem Reads.after (first : List Token) {rest : List Token} {reader next : Reader β}
    (goesOn : ∀ other, other.head? = rest.head? → reader (first ++ other) = next other)
    (reads : Reads finish writes (past ++ lexemes first) next rest) :
    Reads finish writes past reader (first ++ rest) :=
  ExactOn.after first goesOn reads.shift

theorem Reads.congr {reader next : Reader β} (reads : Reads finish writes past next tokens)
    (same : ∀ other, other.head? = tokens.head? → reader other = next other) :
    Reads finish writes past reader tokens :=
  ExactOn.congr reads same

theorem Reads.bind {accepts : List Token → List Token → α → Prop} {reader : Reader α}
    (next : α → Reader β) (exact_ : ExactOn accepts (Blames finish past) reader tokens)
    (behind : ∀ first rest value, tokens = first ++ rest → accepts first rest value →
      Reads finish writes (past ++ lexemes first) (next value) rest) :
    Reads finish writes past
      (fun tokens => reader tokens >>= fun (value, rest) => next value rest) tokens :=
  ExactOn.bind next exact_ (fun _ _ _ => id) fun first rest value split accepted =>
    (behind first rest value split accepted).shift

theorem Reads.expect {lexeme : Lexeme} {what : Expectation}
    {reader : List Token → Except Fault (List Token)} {next : Reader β}
    (expects : Expects finish lexeme what reader) (begins : BeginsRule past)
    (behind : ∀ rest, Reads finish writes (past ++ [lexeme]) next rest) :
    Reads finish writes past (fun tokens => reader tokens >>= next) tokens := by
  refine ExactOn.expect expects (blames_missing begins what) ?_
  intro place rest _
  have reads : Reads finish writes (past ++ lexemes [⟨lexeme, place⟩]) next rest := behind rest
  exact reads.shift

theorem Reads.closing {lexeme : Lexeme} {what : Expectation}
    {reader : List Token → Except Fault (List Token)} (expects : Expects finish lexeme what reader)
    (value : β) (begins : BeginsRule past) (written : writes (past ++ [lexeme]) value) :
    Reads finish writes past (fun tokens => (reader tokens).map fun last => (value, last)) tokens :=
  ExactOn.closing expects value (blames_missing begins what) fun _ _ => written

/-- Whether a reader takes one token, for the value that its lexeme has; a token without such a value
is at fault, for a cause that lies in its lexeme. -/
structure TakesOne (finish : Position) (cause : Option Lexeme → Cause)
    (value? : Lexeme → Option β) (reader : Reader β) : Prop where
  found : ∀ lexeme place rest value, value? lexeme = some value →
    reader (⟨lexeme, place⟩ :: rest) = .ok (value, rest)
  notFound : ∀ tokens, (next? tokens).bind value? = none →
    reader tokens = .error ⟨cause (next? tokens), here finish tokens⟩

theorem Reads.single {reader : Reader β} {cause : Option Lexeme → Cause}
    {value? : Lexeme → Option β} (takesOne : TakesOne finish cause value? reader)
    (blamed : Blames finish past [] tokens ⟨cause (next? tokens), here finish tokens⟩)
    (written : ∀ lexeme value, value? lexeme = some value → writes (past ++ [lexeme]) value) :
    Reads finish writes past reader tokens := by
  cases isFound : (next? tokens).bind value? with
  | none =>
      have stopped (other : List Token) (same : other.head? = tokens.head?) :
          reader other = .error ⟨cause (next? tokens), here finish tokens⟩ := by
        rw [← next?_congr same, ← here_congr finish same]
        exact takesOne.notFound other (next?_congr same ▸ isFound)
      exact .of_error stopped blamed
  | some value =>
      obtain ⟨lexeme, stands, isValue⟩ := Option.bind_eq_some_iff.1 isFound
      obtain ⟨place, rest, rfl⟩ := exists_of_next?_eq_some stands
      exact .takes [⟨lexeme, place⟩] rest value rfl (written lexeme value isValue)
        fun other _ => takesOne.found lexeme place other value isValue

theorem exact_expression (admits : AdmitsExpression past) :
    ExactOn (fun first _ e => Derives leastPrecedence (lexemes first) e) (Blames finish past)
      (fun tokens => outcome (expression finish leastPrecedence tokens)) tokens := by
  have recognized : RecognizesExpression finish leastPrecedence tokens :=
    recognizes_expression (by decide)
  refine recognized.mono (fun first rest e written => written.1) ?_
  rintro first rest fault ⟨⟨what, rfl⟩, completion, e, derivation⟩
  exact .next (admits _ _ _ derivation) Cause.noConfusion rfl rfl

end Readers

/-! ## Actions -/

section Actions

variable {finish : Position} {past : List Lexeme} {tokens : List Token} {opened : Rule}

def actionBehind (finish place : Position) (left : Expr) : Reader Expr
  | ⟨.symbol .assign, _⟩ :: rest =>
    if left.isPath then
      outcome (expression finish leastPrecedence rest) >>= fun (value, behind) =>
        (symbol finish .semicolon .actionEnd behind).map fun last => (.assign left value, last)
    else .error ⟨.targetNoPath, place⟩
  | rest => (symbol finish .semicolon .actionEnd rest).map fun last => (left, last)

theorem actionBehind_else {place : Position} {left : Expr} {rest : List Token}
    (noAssign : next? rest ≠ some (.symbol .assign)) :
    actionBehind finish place left rest =
      (symbol finish .semicolon .actionEnd rest).map fun last => (left, last) := by
  rw [actionBehind.eq_def]
  split
  · exact absurd rfl noAssign
  · rfl

private theorem outcome_action (finish : Position) (tokens : List Token) :
    outcome (action finish tokens) =
      outcome (expression finish leastPrecedence tokens) >>= fun (left, rest) =>
        actionBehind finish (here finish tokens) left rest := by
  cases read : outcome (expression finish leastPrecedence tokens) with
  | error fault =>
      rw [action]
      cases found : expression finish leastPrecedence tokens with
      | error other =>
          rw [found] at read
          exact read
      | ok parsed => simp [found, outcome, Except.map] at read
  | ok taken =>
      obtain ⟨left, rest⟩ := taken
      by_cases isAssign : next? rest = some (.symbol .assign)
      · obtain ⟨place, behind, rfl⟩ := exists_of_next?_eq_some isAssign
        by_cases path : left.isPath = true
        · rw [outcome_action_assigned read path]
          simp only [bind, Except.bind, actionBehind, path, if_true]
        · obtain ⟨fewer, found⟩ := exists_of_outcome_eq_ok read
          simp only [action, found, path, bind, Except.bind, actionBehind]
          rfl
      · rw [outcome_action_evaluated read isAssign]
        simp only [bind, Except.bind, actionBehind_else isAssign]

abbrev WritesAction (opened : Rule) (whole : List Lexeme) (e : Expr) : Prop :=
  DerivesOpening whole (extended opened [e])

private theorem reads_evaluated (opening : DerivesOpening past opened) {written : List Lexeme} {e : Expr}
    (derivation : Derives leastPrecedence written e) :
    Reads finish (WritesAction opened) (past ++ written)
      (fun tokens => (symbol finish .semicolon .actionEnd tokens).map fun last => (e, last))
      tokens := by
  refine Reads.closing (expects_symbol finish .semicolon .actionEnd) e
    (opening.admitsExpression.behind derivation) ?_
  rw [List.append_assoc]
  exact opening.snoc (.evaluated derivation)

private theorem reads_assigned (opening : DerivesOpening past opened) {written : List Lexeme}
    {target : Expr} (derivesTarget : Derives leastPrecedence written target)
    (path : target.isPath = true) :
    Reads finish (WritesAction opened) (past ++ written ++ [.symbol .assign])
      (fun tokens => outcome (expression finish leastPrecedence tokens) >>= fun (value, behind) =>
        (symbol finish .semicolon .actionEnd behind).map fun last =>
          (Expr.assign target value, last))
      tokens := by
  have admits := opening.admitsValue derivesTarget path
  refine Reads.bind
    (fun value behind => (symbol finish .semicolon .actionEnd behind).map fun last =>
      (Expr.assign target value, last))
    (exact_expression admits) ?_
  intro first rest value _ derivesValue
  refine Reads.closing (expects_symbol finish .semicolon .actionEnd) (Expr.assign target value)
    (admits.behind derivesValue) ?_
  have longer := opening.snoc (.assigned derivesTarget path derivesValue)
  simpa using longer

/-- The reader of actions is exact: it takes what can be an action, or blames the first token with
which the text can be no rule. -/
theorem reads_action (opening : DerivesOpening past opened) :
    Reads finish (WritesAction opened) past (fun tokens => outcome (action finish tokens))
      tokens := by
  have equation (other : List Token) (same : other.head? = tokens.head?) :
      outcome (action finish other) =
        outcome (expression finish leastPrecedence other) >>= fun (left, rest) =>
          actionBehind finish (here finish tokens) left rest := by
    rw [outcome_action, here_congr finish same]
  refine ExactOn.congr ?_ equation
  refine ExactOn.bind (fun left rest => actionBehind finish (here finish tokens) left rest)
    (exact_expression opening.admitsExpression) (fun _ _ _ => id) ?_
  rintro first rest left rfl derivation
  by_cases isAssign : next? rest = some (.symbol .assign)
  · by_cases path : left.isPath = true
    · obtain ⟨place, behind, rfl⟩ := exists_of_next?_eq_some isAssign
      have reads : Reads finish (WritesAction opened) (past ++ lexemes first)
          (actionBehind finish (here finish (first ++ ⟨.symbol .assign, place⟩ :: behind)) left)
          (⟨.symbol .assign, place⟩ :: behind) := by
        refine Reads.after [⟨.symbol .assign, place⟩] ?_ (reads_assigned opening derivation path)
        exact fun other _ => if_pos path
      exact reads.shift
    · have noPath : left.isPath = false := eq_false_of_ne_true path
      have stopped (other : List Token) (same : other.head? = rest.head?) :
          actionBehind finish (here finish (first ++ rest)) left other =
            .error ⟨.targetNoPath, here finish (first ++ rest)⟩ := by
        obtain ⟨place, behind, rfl⟩ := exists_of_next?_eq_some (next?_congr same ▸ isAssign)
        exact if_neg path
      refine .of_error stopped ?_
      have derivesOpening : DerivesOpening (past ++ lexemes []) opened :=
        (List.append_nil past).symm ▸ opening
      rw [List.append_nil]
      exact .target rfl derivesOpening derivation noPath isAssign
  · have reads : Reads finish (WritesAction opened) (past ++ lexemes first)
        (actionBehind finish (here finish (first ++ rest)) left) rest :=
      (reads_evaluated opening derivation).congr fun other same =>
        actionBehind_else (next?_congr same ▸ isAssign)
    exact reads.shift

private theorem actions_closed (finish : Position) (name : String)
    (isClose : next? tokens = some (.symbol .closeBrace)) :
    actions finish name tokens = .ok ([], tokens) := by
  obtain ⟨place, rest, rfl⟩ := exists_of_next?_eq_some isClose
  rw [actions, if_pos rfl]

private theorem actions_open (finish : Position) (name : String) {token : Token} (rest : List Token)
    (noClose : token.lexeme ≠ .symbol .closeBrace) :
    actions finish name (token :: rest) =
      outcome (action finish (token :: rest)) >>= fun (first, behind) =>
        (actions finish name behind).map fun (others, last) => (first :: others, last) := by
  rw [actions, if_neg noClose]
  cases action finish (token :: rest) <;> rfl

/-- So does the reader of all actions up to the closing brace. -/
theorem reads_actions (name : String) (opening : DerivesOpening past opened) :
    ExactOn
      (fun first rest es => DerivesOpening (past ++ lexemes first) (extended opened es) ∧
        next? rest = some (.symbol .closeBrace))
      (Blames finish past) (actions finish name) tokens := by
  -- by the number of tokens, of which an action takes one at least; each action is added to the
  -- opening behind which the others are read
  induction size : tokens.length using Nat.strongRecOn generalizing tokens past opened with
  | ind size inductionHypothesis =>
  subst size
  by_cases isClose : next? tokens = some (.symbol .closeBrace)
  · refine .of_ok [] (fun other same => actions_closed finish name (next?_congr same ▸ isClose)) ?_
    exact ⟨by simpa [extended] using opening, isClose⟩
  cases tokens with
  | nil =>
      have stopped (other : List Token) (same : other.head? = none) :
          actions finish name other = .error ⟨.unclosedRule name, finish⟩ := by
        rw [List.head?_eq_none_iff.1 same, actions]
      exact .of_error stopped (blames_next opening.begins Cause.noConfusion rfl rfl)
  | cons token rest =>
      have noClose : token.lexeme ≠ .symbol .closeBrace := by simpa [next?] using isClose
      have goesOn (other : List Token) (same : other.head? = (token :: rest).head?) :
          actions finish name other =
            outcome (action finish other) >>= fun (first, behind) =>
              (actions finish name behind).map fun (others, last) => (first :: others, last) := by
        obtain ⟨others, rfl⟩ := List.head?_eq_some_iff.1 same
        exact actions_open finish name others noClose
      refine ExactOn.congr ?_ goesOn
      refine ExactOn.bind (fun e behind => (actions finish name behind).map fun (others, last) =>
        (e :: others, last)) (reads_action opening).read (fun _ _ _ => id) ?_
      rintro first last e split ⟨longer, read⟩
      obtain ⟨fewer, -⟩ := exists_of_outcome_eq_ok read
      refine ExactOn.map (inductionHypothesis last.length fewer longer rfl) ?_ ?_
      · rintro more behind es ⟨opens, closes⟩
        rw [List.append_assoc, ← List.map_append, extended_extended] at opens
        exact ⟨opens, closes⟩
      · exact fun more behind fault => Blames.shift

end Actions

end Rulebook.Grammar
