import Rulebook.Proofs.Grammar.RuleExactness

/-!
# Progress of readers

Readers of the grammar make progress. From any index of a list of tokens on, each of them takes a
token at least and ends no further than where the tokens end, or it stops with a fault of syntax at a
token that it has reached. It looks at no token behind the one in front of which it ends. The reader
of rules alone has another way to stop, at a salience with too many digits.
-/

namespace Rulebook.Grammar

open Text (Position)

/-- Whether a fault is at one of the tokens that were taken or at the next one, which may be the end
of the text. -/
def FaultAmong (finish : Position) (first rest : List Token) (fault : Fault) : Prop :=
  ∃ passed more, first = passed ++ more ∧ fault.place = here finish (more ++ rest)

variable {α : Type} {finish : Position} {tokens : List Token}

theorem faultAmong_next {first rest : List Token} {fault : Fault}
    (place : fault.place = here finish rest) : FaultAmong finish first rest fault :=
  ⟨first, [], (List.append_nil first).symm, place⟩

theorem Blames.faultAmong {past : List Lexeme} {first rest : List Token} {fault : Fault}
    (blames : Blames finish past first rest fault) : FaultAmong finish first rest fault := by
  cases blames with
  | next _ _ _ place => exact faultAmong_next place
  | overflow => exact faultAmong_next rfl
  | target split => exact ⟨_, _, split, rfl⟩

/-- Whether a fault is one of syntax, at one of the tokens that were taken or at the next one. -/
structure SyntaxAmong (finish : Position) (first rest : List Token) (fault : Fault) : Prop where
  isSyntax : fault.isSyntax = true
  among : FaultAmong finish first rest fault

theorem Begun.syntaxAmong {level : Nat} {before : List Lexeme} {first rest : List Token}
    {fault : Fault} (begun : Begun finish level before first rest fault) :
    SyntaxAmong finish first rest fault := by
  obtain ⟨⟨what, rfl⟩, -⟩ := begun
  exact ⟨rfl, faultAmong_next rfl⟩

/-- Behind the opening brace of a rule no salience is read any more. -/
theorem Blames.syntaxAmong {past : List Lexeme} {opened : Rule} {first rest : List Token}
    {fault : Fault} (blames : Blames finish past first rest fault)
    (opening : DerivesOpening past opened) : SyntaxAmong finish first rest fault := by
  refine ⟨?_, blames.faultAmong⟩
  cases blames with
  | next _ _ isSyntax => exact isSyntax
  | overflow _ ends =>
      exact absurd (List.mem_append_left _ opening.openBrace_mem) ends.openBrace_notMem
  | target => rfl

/-! ## Readers that take a token at least -/

/-- Whether a reader takes a token at least, or stops with a fault of syntax at a token that it has
reached. -/
abbrev Proceeds (finish : Position) (reader : Reader α) (tokens : List Token) : Prop :=
  ExactOn (fun first _ _ => first ≠ []) (SyntaxAmong finish) reader tokens

/-- A reader that recognizes proceeds. -/
theorem Recognizes.proceeds {level : Nat} {ends : List Token → Prop} {reader : Reader Expr}
    (recognizes : Recognizes finish level [] ends reader tokens) :
    Proceeds finish reader tokens := by
  refine recognizes.mono ?_ fun _ _ _ => Begun.syntaxAmong
  rintro first rest e ⟨derivation, -⟩ rfl
  exact derivation.ne_nil rfl

/-- Reads an operand with no operator before it, as `outcome_operand_else` says: a literal, the name
of a fact, or an expression between parentheses, with the fields and indices behind it. -/
def access (finish : Position) : Reader Expr :=
  fun tokens => outcome (primary finish tokens) >>= fun (base, rest) =>
    outcome (accessors finish base rest)

theorem recognizes_primary_alone :
    Recognizes finish primaryLevel [] (fun _ => True)
      (fun tokens => outcome (primary finish tokens)) tokens :=
  recognizes_primary fun _ _ => recognizes_expression (by decide)

private theorem proceeds_primary : Proceeds finish (fun tokens => outcome (primary finish tokens)) tokens :=
  recognizes_primary_alone.proceeds

private theorem proceeds_access : Proceeds finish (access finish) tokens := by
  refine ExactOn.bind (fun base rest => outcome (accessors finish base rest))
    recognizes_primary_alone (fun _ _ _ => Begun.syntaxAmong) ?_
  rintro first rest base - ⟨derivation, -⟩
  have behind : Recognizes finish accessLevel ([] ++ lexemes first) (Stops accessLevel)
      (fun tokens => outcome (accessors finish base tokens)) rest :=
    recognizes_accessors derivation.tighter fun _ _ => recognizes_expression (by decide)
  refine behind.shift.mono ?_ fun _ _ _ => Begun.syntaxAmong
  rintro more last e ⟨whole, -⟩ isEmpty
  rw [isEmpty] at whole
  exact whole.ne_nil rfl

theorem proceeds_operand : Proceeds finish (fun tokens => outcome (operand finish tokens)) tokens :=
  (recognizes_operand fun _ _ => recognizes_expression (by decide)).proceeds

/-- No operator between two operands binds as strongly as those before one. -/
theorem outcome_operators_of_precedence_le {least : Nat} (high : UnaryOp.precedence ≤ least)
    (left : Expr) (tokens : List Token) :
    outcome (operators finish least left tokens) = .ok (left, tokens) := by
  cases tokens with
  | nil => exact outcome_operators_nil finish least left
  | cons token rest =>
      cases found : operator? token with
      | none => exact outcome_operators_none finish found
      | some op =>
          have weak : op.precedence < least := Nat.lt_of_lt_of_le (precedence_lt_unary op) high
          rw [outcome_operators_some finish found, if_pos weak]

private theorem outcome_expression_of_precedence_le {least : Nat} (high : UnaryOp.precedence ≤ least)
    (tokens : List Token) :
    outcome (expression finish least tokens) = outcome (operand finish tokens) := by
  rw [outcome_expression]
  cases outcome (operand finish tokens) with
  | error fault => rfl
  | ok taken => exact outcome_operators_of_precedence_le high taken.1 taken.2

private theorem proceeds_expression (least : Nat) :
    Proceeds finish (fun tokens => outcome (expression finish least tokens)) tokens := by
  rcases Nat.le_total least UnaryOp.precedence with low | high
  · exact (recognizes_expression low).proceeds
  · exact proceeds_operand.congr fun other _ => outcome_expression_of_precedence_le high other

/-- The bound on the tokens that an action leaves shows that it has one at least. -/
theorem proceeds_action :
    Proceeds finish (fun tokens => outcome (action finish tokens)) tokens := by
  have condition : Derives leastPrecedence [.keyword .trueWord] (.bool true) :=
    (Derives.atom rfl).loosen (by decide)
  have opening : DerivesOpening _ ⟨"", 0, .bool true, [], none⟩ :=
    .intro .omitted condition .nil
  have reads : Reads finish (WritesAction _) _ (fun tokens => outcome (action finish tokens))
      tokens := reads_action opening
  cases reads with
  | takes first rest e split _ same =>
      refine .takes first rest e split ?_ same
      rintro rfl
      obtain ⟨fewer, -⟩ := exists_of_outcome_eq_ok (same rest rfl)
      exact Nat.lt_irrefl _ fewer
  | stops first rest fault split blames same =>
      exact .stops first rest fault split (blames.syntaxAmong opening) same

/-- Whether a salience with too many digits stands in a rule with which tokens begin. -/
def HasLongSalience (tokens : List Token) : Prop :=
  ∃ before rest, tokens = before ++ rest ∧ OverflowsSalience before rest

private theorem proceeds_rule (fits : ¬ HasLongSalience tokens) : Proceeds finish (rule finish) tokens := by
  have reads : Reads finish DerivesRule [] (rule finish) tokens := reads_rule
  cases reads with
  | takes first rest r split derivation same =>
      refine .takes first rest r split ?_ same
      rintro rfl
      cases derivation
  | stops first rest fault split blames same =>
      have isSyntax : fault.isSyntax = true := by
        cases known : fault.isSyntax with
        | true => rfl
        | false => exact absurd ⟨first, rest, split, (blames.overflowsSalience known).1⟩ fits
      exact .stops first rest fault split ⟨isSyntax, blames.faultAmong⟩ same

/-! ## From an index on -/

/-- Whether two lists have the same tokens in front of an index and at it. -/
def SameUpTo (index : Nat) (tokens other : List Token) : Prop :=
  other.take (index + 1) = tokens.take (index + 1)

/-- What the tokens in front of an index are split into, and what stands at the index, is the same
in lists that are the same up to there. -/
theorem SameUpTo.drop_eq {start : Nat} {first rest other : List Token}
    (split : tokens.drop start = first ++ rest)
    (same : SameUpTo (start + first.length) tokens other) :
    other.drop start = first ++ other.drop (start + first.length) ∧
      (other.drop (start + first.length)).head? = rest.head? := by
  have sameBehind : (other.drop start).take (first.length + 1) =
      (first ++ rest).take (first.length + 1) := by
    have both := congrArg (List.drop start) same
    rw [← split]
    simpa only [List.drop_take, Nat.add_assoc, Nat.add_sub_cancel_left] using both
  have sameFirst : (other.drop start).take first.length = first := by
    have both := congrArg (List.take first.length) sameBehind
    simpa [List.take_take] using both
  have sameNext : (other.drop start)[first.length]? = rest.head? := by
    have both := congrArg (fun list => list[first.length]?) sameBehind
    simp only [List.getElem?_take_of_lt (Nat.lt_succ_self first.length)] at both
    rw [both, List.getElem?_append_right (Nat.le_refl _), Nat.sub_self, List.head?_eq_getElem?]
  rw [← List.drop_drop]
  constructor
  · calc other.drop start
        = (other.drop start).take first.length ++ (other.drop start).drop first.length :=
          (List.take_append_drop _ _).symm
      _ = first ++ (other.drop start).drop first.length := by rw [sameFirst]
  · rw [List.head?_drop, sameNext]

/-- `Advances finish reader tokens start` says what a reader does from an index on. It takes tokens
up to a later index, which is not behind the end of the tokens; or it ends with a fault of syntax
whose place is that of a token from that index on, or of the end. It does the same where the tokens
behind the index at which it ends are others. -/
inductive Advances (finish : Position) (reader : Reader α) (tokens : List Token) (start : Nat) :
    Prop
  | takes (stop : Nat) (value : α) :
      start < stop →
      stop ≤ tokens.length →
      (∀ other, SameUpTo stop tokens other →
        reader (other.drop start) = .ok (value, other.drop stop)) →
      Advances finish reader tokens start
  | stops (index stop : Nat) (fault : Fault) :
      start ≤ index →
      index ≤ stop →
      stop ≤ tokens.length →
      fault.isSyntax = true →
      fault.place = here finish (tokens.drop index) →
      (∀ other, SameUpTo stop tokens other → reader (other.drop start) = .error fault) →
      Advances finish reader tokens start

theorem start_add_length_le {start : Nat} {first rest : List Token} (inside : start ≤ tokens.length)
    (split : tokens.drop start = first ++ rest) : start + first.length ≤ tokens.length := by
  have length := congrArg List.length split
  rw [List.length_drop, List.length_append] at length
  omega

/-- A reader that proceeds is further on in the whole list of tokens, or its fault is among them. -/
theorem Proceeds.advances {reader : Reader α} {start : Nat} (inside : start ≤ tokens.length)
    (proceeds : Proceeds finish reader (tokens.drop start)) :
    Advances finish reader tokens start := by
  cases proceeds with
  | takes first rest value split nonempty same =>
      have taken : 0 < first.length := List.length_pos_iff.2 nonempty
      refine .takes (start + first.length) value (Nat.lt_add_of_pos_right taken)
        (start_add_length_le inside split) fun other sameUpTo => ?_
      obtain ⟨splitOther, sameHead⟩ := sameUpTo.drop_eq split
      rw [splitOther]
      exact same _ sameHead
  | stops first rest fault split among same =>
      obtain ⟨isSyntax, passed, more, rfl, place⟩ := among
      refine .stops (start + passed.length) (start + (passed ++ more).length) fault
        (Nat.le_add_right _ _) ?_ (start_add_length_le inside split) isSyntax ?_
        fun other sameUpTo => ?_
      · rw [List.length_append]
        omega
      · rw [place, ← List.drop_drop, split, List.append_assoc, List.drop_left]
      · obtain ⟨splitOther, sameHead⟩ := sameUpTo.drop_eq split
        rw [splitOther]
        exact same _ sameHead

/-- A salience with too many digits stops the reader of rules there, whatever stands behind it. -/
theorem stops_of_overflows {start : Nat} {before rest : List Token}
    (split : tokens.drop start = before ++ rest) (overflows : OverflowsSalience before rest) :
    ∃ count, ∀ other, SameUpTo (start + before.length) tokens other →
      rule finish (other.drop start) = .error ⟨.tooManyDigits count, here finish rest⟩ := by
  obtain ⟨ends, numeral, isNumber, long⟩ := overflows
  refine ⟨numeral.whole.length, fun other sameUpTo => ?_⟩
  obtain ⟨splitOther, sameHead⟩ := sameUpTo.drop_eq split
  rw [splitOther, ← here_congr finish sameHead]
  exact rule_of_isOverlong finish ends ((next?_congr sameHead).trans isNumber) long

/-- Wherever they begin, the readers of expressions and of actions make progress, whatever the least
binding power is, and so does the reader of rules where no salience has too many digits. That they
end at all is part of their definitions, by the number of tokens that are left. -/
theorem readers_advance (finish : Position) {tokens : List Token} {start : Nat}
    (inside : start ≤ tokens.length) :
    (∀ least,
        Advances finish (fun tokens => outcome (expression finish least tokens)) tokens start) ∧
      Advances finish (fun tokens => outcome (operand finish tokens)) tokens start ∧
      Advances finish (access finish) tokens start ∧
      Advances finish (fun tokens => outcome (primary finish tokens)) tokens start ∧
      Advances finish (fun tokens => outcome (action finish tokens)) tokens start ∧
      (¬ HasLongSalience (tokens.drop start) → Advances finish (rule finish) tokens start) ∧
      ∀ before rest, tokens.drop start = before ++ rest → OverflowsSalience before rest →
        ∃ count, ∀ other, SameUpTo (start + before.length) tokens other →
          rule finish (other.drop start) = .error ⟨.tooManyDigits count, here finish rest⟩ :=
  ⟨fun least => (proceeds_expression least).advances inside, proceeds_operand.advances inside,
    proceeds_access.advances inside, proceeds_primary.advances inside,
    proceeds_action.advances inside, fun fits => (proceeds_rule fits).advances inside,
    fun _ _ => stops_of_overflows⟩

/-- Behind the minus of `-(a`, whose parenthesis is never closed. -/
theorem readers_advance_unclosed :
    let tokens := (Scan.lenient "-(a").tokens
    let finish := (Scan.lenient "-(a").finish
    1 ≤ tokens.length ∧ ¬ HasLongSalience (tokens.drop 1) ∧
      (∀ least,
        Advances finish (fun tokens => outcome (expression finish least tokens)) tokens 1) ∧
      Advances finish (fun tokens => outcome (operand finish tokens)) tokens 1 ∧
      Advances finish (access finish) tokens 1 ∧
      Advances finish (fun tokens => outcome (primary finish tokens)) tokens 1 ∧
      Advances finish (fun tokens => outcome (action finish tokens)) tokens 1 ∧
      Advances finish (rule finish) tokens 1 := by
  have behindMinus : next? ((Scan.lenient "-(a").tokens.drop 1) =
      some (.symbol .openParenthesis) := by decide +kernel
  have inside : 1 ≤ (Scan.lenient "-(a").tokens.length := by
    refine Nat.le_of_lt (Nat.lt_of_not_le fun short => ?_)
    rw [List.drop_of_length_le short] at behindMinus
    cases behindMinus
  have fits : ¬ HasLongSalience ((Scan.lenient "-(a").tokens.drop 1) := by
    rintro ⟨before, rest, split, ⟨name, text, sign, -, spelled⟩, -⟩
    obtain ⟨place, others, rfl, -⟩ := exists_token_of_map_eq_cons spelled
    rw [split] at behindMinus
    cases behindMinus
  obtain ⟨ofExpression, ofOperand, ofAccess, ofPrimary, ofAction, ofRule, -⟩ :=
    readers_advance (Scan.lenient "-(a").finish inside
  exact ⟨inside, fits, ofExpression, ofOperand, ofAccess, ofPrimary, ofAction, ofRule fits⟩

/-- The reader of rules does not always make progress or find a fault of syntax. -/
theorem not_all_advance :
    ¬ ∀ (finish : Position) (tokens : List Token) (start : Nat), start ≤ tokens.length →
      Advances finish (rule finish) tokens start := by
  intro allAdvance
  have spelled : (longSalienceLexemes.map (⟨·, Position.start⟩)).map Token.lexeme =
      longSalienceLexemes := by
    simp [Function.comp_def]
  obtain ⟨before, rest, -, ends, numeral, isNumber, long⟩ :=
    overflowsSalience_longSalience spelled
  have stopped := rule_of_isOverlong Position.start ends isNumber long
  cases allAdvance .start (before ++ rest) 0 (Nat.zero_le _) with
  | takes stop value _ _ same => cases stopped.symm.trans (same _ rfl)
  | stops index stop fault _ _ _ isSyntax _ same =>
      cases stopped.symm.trans (same _ rfl)
      cases isSyntax

end Rulebook.Grammar
