import Rulebook.Proofs.Computation
import Rulebook.Proofs.Grammar.RuleRecognition
import Rulebook.Proofs.Token.Spelling

/-!
# Exactness for rules

A text is read as a rule exactly where the grammar derives one from its tokens, unless the digits of
its salience are too many to be read. Otherwise the first token with which no rule goes on is blamed.
That a rule goes on up to this token is known for each part of the reader. That none goes on with it
follows once for all parts: with this token there the reader stops whatever comes behind it, while it
would not stop in a rule.
-/

namespace Rulebook

namespace Grammar

open Text (Position Quotable)

/-! ## Where a reader stops -/

/-- Whether what is written goes on behind lexemes with a certain one, or, given none, ends there. -/
def ContinuesRule (derives : List Lexeme → Rule → Prop) (written : List Lexeme)
    (next : Option Lexeme) : Prop :=
  ∃ behind rule, behind.head? = next ∧ derives (written ++ behind) rule

/-- Whether tokens begin something that is written, while none of it goes on with the token behind
them or, if there is no such token, ends there. -/
structure StopsRule (derives : List Lexeme → Rule → Prop) (before rest : List Token) : Prop where
  begins : Begins derives (lexemes before)
  impossible : ¬ ContinuesRule derives (lexemes before) (next? rest)

/-- Whether a salience with too many digits stands behind tokens that begin a rule. -/
def OverflowsSalience (before rest : List Token) : Prop :=
  EndsInSalience (lexemes before) ∧
    ∃ numeral, next? rest = some (.number numeral) ∧ numeral.isOverlong = true

/-- Whether an assignment stands behind an action that begins at a place and is no path. -/
def AssignsToNoPath (before rest : List Token) (place : Position) : Prop :=
  next? rest = some (.symbol .assign) ∧
    ∃ opening action opened target, before = opening ++ action ∧
      DerivesOpening (opening.map Token.lexeme) opened ∧
      Derives leastPrecedence (action.map Token.lexeme) target ∧
      target.isPath = false ∧ action.head?.map Token.place = some place

section Places

variable {derives : List Lexeme → Rule → Prop} {before more rest other later : List Token}

theorem StopsRule.nil_of_begins (stops : StopsRule derives before (more ++ later))
    (begins : Begins derives (lexemes (before ++ more))) : more = [] := by
  cases more with
  | nil => rfl
  | cons token others =>
      obtain ⟨completion, rule, derivation⟩ := begins
      refine absurd ⟨token.lexeme :: (lexemes others ++ completion), rule, rfl, ?_⟩ stops.impossible
      simpa using derivation

/-- Tokens stop in one place at most. -/
theorem StopsRule.unique (stops : StopsRule derives before rest) (stopsOther : StopsRule derives other later)
    (same : before ++ rest = other ++ later) : before = other := by
  rcases List.append_eq_append_iff.1 same with ⟨more, rfl, rfl⟩ | ⟨more, rfl, rfl⟩
  · rw [stops.nil_of_begins stopsOther.begins, List.append_nil]
  · rw [stopsOther.nil_of_begins stops.begins, List.append_nil]

end Places

/-! ## Saliences of any length -/

section Saliences

variable {natural? other? : Numeral → Option Nat} {written : List Lexeme} {tokens : List Token}
  {finish : Position}

theorem DerivesSalienceBy.mono {n : Int} (derivation : DerivesSalienceBy natural? written n)
    (weaker : ∀ numeral m, natural? numeral = some m → other? numeral = some m) :
    DerivesSalienceBy other? written n := by
  cases derivation with
  | omitted => exact .omitted
  | positive whole => exact .positive (weaker _ _ whole)
  | negative whole => exact .negative (weaker _ _ whole)

theorem DerivesRuleBy.mono {rule : Rule} (derivation : DerivesRuleBy natural? written rule)
    (weaker : ∀ numeral m, natural? numeral = some m → other? numeral = some m) :
    DerivesRuleBy other? written rule := by
  obtain ⟨derivesSalience, derivesCondition, derivesActions, nonempty⟩ := derivation
  exact .intro (derivesSalience.mono weaker) derivesCondition derivesActions nonempty

/-- A derivable rule is written by the grammar that knows no bound for numbers. -/
theorem DerivesRule.writesRule {rule : Rule} (derivation : DerivesRule written rule) :
    WritesRule written rule :=
  derivation.mono fun _ _ whole => (Numeral.toNat?_eq_some_iff.1 whole).1

/-- A salience that is written is read, unless its digits are too many. -/
theorem derives_or_isOverlong {n : Int} (writes : DerivesSalienceBy Numeral.natural? written n) :
    DerivesSalience written n ∨
      ∃ sign numeral, (sign = [] ∨ sign = [.symbol .minus]) ∧ numeral.isOverlong = true ∧
        written = .keyword .salience :: (sign ++ [.number numeral]) := by
  cases writes with
  | omitted => exact .inl .omitted
  | @positive numeral n whole =>
      cases long : numeral.isOverlong with
      | true => exact .inr ⟨[], numeral, .inl rfl, long, rfl⟩
      | false => exact .inl (.positive (Numeral.toNat?_eq_some_iff.2 ⟨whole, long⟩))
  | @negative numeral n whole =>
      cases long : numeral.isOverlong with
      | true => exact .inr ⟨[.symbol .minus], numeral, .inr rfl, long, rfl⟩
      | false => exact .inl (.negative (Numeral.toNat?_eq_some_iff.2 ⟨whole, long⟩))

theorem overflowsSalience_of_lexemes {name : String} {text : Option Quotable}
    {sign more : List Lexeme} {numeral : Numeral}
    (isSign : sign = [] ∨ sign = [.symbol .minus]) (long : numeral.isOverlong = true)
    (spelled : lexemes tokens =
      headingLexemes name text (.keyword .salience :: sign) ++ .number numeral :: more) :
    ∃ before rest, tokens = before ++ rest ∧ OverflowsSalience before rest := by
  obtain ⟨before, rest, rfl, spelledBefore, spelledRest⟩ := List.map_eq_append_iff.1 spelled
  refine ⟨before, rest, rfl, ⟨name, text, sign, isSign, spelledBefore⟩, numeral, ?_, long⟩
  rw [next?, ← List.head?_map, spelledRest]
  rfl

/-- What is written as a rule is one, unless the digits of its salience are too many. -/
theorem WritesRule.derives_or_overflows {rule : Rule} (writes : WritesRule (lexemes tokens) rule) :
    DerivesRule (lexemes tokens) rule ∨
      ∃ before rest, tokens = before ++ rest ∧ OverflowsSalience before rest := by
  generalize spelled : lexemes tokens = written at writes
  cases writes with
  | @intro _ conditionLexemes actionLexemes _ writesSalience derivesCondition derivesActions
      nonempty =>
    rcases derives_or_isOverlong writesSalience with
      derivesSalience | ⟨sign, numeral, isSign, long, rfl⟩
    · exact .inl (.intro derivesSalience derivesCondition derivesActions nonempty)
    · have behind : lexemes tokens =
          headingLexemes rule.name rule.description (.keyword .salience :: sign) ++
            .number numeral :: .symbol .openBrace :: .keyword .whenWord ::
              (conditionLexemes ++
                .keyword .thenWord :: (actionLexemes ++ [.symbol .closeBrace])) := by
        rw [spelled]
        simp [headingLexemes]
      exact .inr (overflowsSalience_of_lexemes isSign long behind)

private theorem salience_of_isOverlong (finish : Position) {sign : List Lexeme} {signTokens : List Token}
    {numeral : Numeral} (isSign : sign = [] ∨ sign = [.symbol .minus])
    (spelled : lexemes signTokens = sign) (long : numeral.isOverlong = true)
    (wordPlace place : Position) (more : List Token) :
    salience finish
      (⟨.keyword .salience, wordPlace⟩ :: (signTokens ++ ⟨.number numeral, place⟩ :: more)) =
        .error ⟨.tooManyDigits numeral.whole.length, place⟩ := by
  rcases isSign with rfl | rfl
  · obtain rfl : signTokens = [] := List.map_eq_nil_iff.1 spelled
    simp [salience, salienceDigits_of_isOverlong finish long, Except.map]
  · obtain ⟨signPlace, others, rfl, spelledOthers⟩ := exists_token_of_map_eq_cons spelled
    obtain rfl : others = [] := List.map_eq_nil_iff.1 spelledOthers
    simp [salience, salienceDigits_of_isOverlong finish long, Except.map]

/-- Too many digits of a salience stop the reader of rules, whatever stands behind them. -/
theorem rule_of_isOverlong (finish : Position) {before rest : List Token} {numeral : Numeral}
    (ends : EndsInSalience (lexemes before)) (isNumber : next? rest = some (.number numeral))
    (long : numeral.isOverlong = true) :
    rule finish (before ++ rest) =
      .error ⟨.tooManyDigits numeral.whole.length, here finish rest⟩ := by
  obtain ⟨name, text, sign, isSign, spelled⟩ := ends
  obtain ⟨place, more, rfl⟩ := exists_of_next?_eq_some isNumber
  obtain ⟨rulePlace, behindRule, rfl, spelledBehindRule⟩ := exists_token_of_map_eq_cons spelled
  obtain ⟨namePlace, behindName, rfl, spelledBehindName⟩ :=
    exists_token_of_map_eq_cons spelledBehindRule
  obtain ⟨descriptionTokens, behindDescription, rfl, spelledDescription, spelledSalience⟩ :=
    List.map_eq_append_iff.1 spelledBehindName
  obtain ⟨wordPlace, signTokens, rfl, spelledSign⟩ := exists_token_of_map_eq_cons spelledSalience
  have stopped := salience_of_isOverlong finish isSign spelledSign long wordPlace place more
  have noText (text : Quotable) : next? (⟨.keyword .salience, wordPlace⟩ ::
      (signTokens ++ ⟨.number numeral, place⟩ :: more)) ≠ some (.string text) := by
    simp [next?]
  have described := description_lexemes spelledDescription noText
  simp only [rule, List.cons_append, List.append_assoc, keyword_cons, ruleName, bind, Except.bind,
    described, stopped]
  rfl

/-- Where the salience is beyond the bound, that is the fault, whatever comes behind it. -/
theorem wholeRule_of_overflows (finish : Position) {before rest : List Token}
    (overflows : OverflowsSalience before rest) :
    ∃ count, wholeRule finish (before ++ rest) =
      .error ⟨.tooManyDigits count, here finish rest⟩ := by
  obtain ⟨ends, numeral, isNumber, long⟩ := overflows
  refine ⟨numeral.whole.length, ?_⟩
  rw [wholeRule, rule_of_isOverlong finish ends isNumber long]
  rfl

end Saliences

theorem exists_tokens_of_head? {behind : List Lexeme} {rest : List Token}
    (same : behind.head? = next? rest) :
    ∃ other, lexemes other = behind ∧ other.head? = rest.head? := by
  cases rest with
  | nil =>
      obtain rfl : behind = [] := List.head?_eq_none_iff.1 same
      exact ⟨[], rfl, rfl⟩
  | cons token others =>
      obtain ⟨more, rfl⟩ := List.head?_eq_some_iff.1 same
      refine ⟨token :: more.map (⟨·, token.place⟩), ?_, rfl⟩
      simp [lexemes, Function.comp_def]

private theorem not_continuesRule {finish : Position} {first rest : List Token} {fault : Fault}
    (stops : ∀ other, other.head? = rest.head? →
      wholeReader finish (first ++ other) = .error fault) :
    ¬ ContinuesRule DerivesRule (lexemes first) (next? rest) := by
  rintro ⟨behind, r, isNext, derivation⟩
  obtain ⟨other, rfl, same⟩ := exists_tokens_of_head? isNext
  have read : wholeRule finish (first ++ other) = .ok r :=
    wholeRule_of_derives finish derivation List.map_append
  have stopped := stops other same
  rw [wholeReader, read] at stopped
  cases stopped

private theorem not_continuesRule_of_isSyntax {finish : Position} {first rest : List Token} {fault : Fault}
    (isSyntax : fault.isSyntax = true)
    (stops : ∀ other, other.head? = rest.head? →
      wholeReader finish (first ++ other) = .error fault) :
    ¬ ContinuesRule WritesRule (lexemes first) (next? rest) := by
  rintro ⟨behind, r, isNext, writes⟩
  obtain ⟨other, rfl, same⟩ := exists_tokens_of_head? isNext
  have stopped := stops other same
  rw [lexemes, ← List.map_append] at writes
  rcases writes.derives_or_overflows with derivation | ⟨before, last, split, overflows⟩
  · rw [wholeReader, wholeRule_of_derives finish derivation rfl] at stopped
    cases stopped
  · obtain ⟨count, overflowed⟩ := wholeRule_of_overflows finish overflows
    rw [wholeReader, split, overflowed] at stopped
    cases stopped
    cases isSyntax

/-! ## What is read, and what is blamed -/

/-- What is read as a rule derives it. -/
theorem derives_of_wholeRule {finish : Position} {tokens : List Token} {r : Rule}
    (read : wholeRule finish tokens = .ok r) : DerivesRule (lexemes tokens) r := by
  have taken : wholeReader finish tokens = .ok (r, []) := by
    rw [wholeReader, read]
    rfl
  obtain ⟨first, split, derivation, -⟩ := (exact_wholeRule finish tokens).accepts_of_eq_ok taken
  rw [split, List.append_nil]
  exact derivation

theorem Blames.begins {finish : Position} {past : List Lexeme} {first rest : List Token}
    {fault : Fault} (blames : Blames finish past first rest fault) :
    BeginsRule (past ++ lexemes first) := by
  cases blames with
  | next begins => exact begins
  | overflow begins => exact begins
  | @target opening action _ _ split derivesOpening derivation _ _ =>
      rw [split, lexemes, List.map_append, ← List.append_assoc]
      exact derivesOpening.admitsExpression.behind derivation

theorem Blames.place_eq {finish : Position} {past : List Lexeme} {first rest : List Token}
    {fault : Fault} (blames : Blames finish past first rest fault)
    (cause : fault.cause ≠ .targetNoPath) : fault.place = here finish rest := by
  cases blames with
  | next _ _ _ place => exact place
  | overflow => rfl
  | target => exact absurd rfl cause

theorem Blames.assignsToNoPath {finish : Position} {first rest : List Token} {fault : Fault}
    (blames : Blames finish [] first rest fault) (cause : fault.cause = .targetNoPath) :
    AssignsToNoPath first rest fault.place := by
  cases blames with
  | next _ otherCause => exact absurd cause otherCause
  | overflow => cases cause
  | @target opening action opened target split derivesOpening derivation noPath isAssign =>
      refine ⟨isAssign, opening, action, opened, target, split, derivesOpening, derivation, noPath,
        ?_⟩
      cases action with
      | nil => exact absurd rfl derivation.ne_nil
      | cons token others => rfl

/-- Only a salience with too many digits is a fault that is none of syntax. -/
theorem Blames.overflowsSalience {finish : Position} {first rest : List Token} {fault : Fault}
    (blames : Blames finish [] first rest fault) (noSyntax : fault.isSyntax = false) :
    OverflowsSalience first rest ∧ fault.place = here finish rest := by
  cases blames with
  | next _ _ isSyntax =>
      rw [isSyntax] at noSyntax
      cases noSyntax
  | overflow _ ends isNumber long => exact ⟨⟨ends, _, isNumber, long⟩, rfl⟩
  | target => cases noSyntax

theorem BeginsRule.writes {written : List Lexeme} (begins : BeginsRule written) :
    Begins WritesRule written := by
  obtain ⟨completion, rule, derivation⟩ := begins
  exact ⟨completion, rule, derivation.writesRule⟩

/-- Each fault of a rule is at the first token with which the text can be no rule, or is one of the
two other faults. -/
theorem blames_of_wholeRule {finish : Position} {tokens : List Token} {fault : Fault}
    (failed : wholeRule finish tokens = .error fault) :
    ∃ before rest, tokens = before ++ rest ∧ Blames finish [] before rest fault ∧
      StopsRule DerivesRule before rest ∧
      (fault.isSyntax = true → StopsRule WritesRule before rest) := by
  cases exact_wholeRule finish tokens with
  | takes first rest r split accepted same =>
      have read := same rest rfl
      rw [← split, wholeReader, failed] at read
      cases read
  | stops before rest other split blames same =>
      have stopped := same rest rfl
      rw [← split, wholeReader, failed] at stopped
      obtain rfl : fault = other := Except.error.inj stopped
      exact ⟨before, rest, split, blames, ⟨blames.begins, not_continuesRule same⟩, fun isSyntax =>
        ⟨blames.begins.writes, not_continuesRule_of_isSyntax isSyntax same⟩⟩

end Grammar

/-- A text that can be scanned is read as a rule exactly where the grammar writes the rule with its
tokens and no salience has too many digits. A fault of syntax stands where no rule goes on: there is
one such place, and the fault is found there, at the next token or the end of the text; only an
assignment to what is no path is placed at the start of its action. Too many digits of a salience
are told by a fault of their own, wherever a rule has begun up to them. -/
theorem Rule.parse_exact {text : String} {scan : Scan} (scanned : Scan.strict text = .ok scan) :
    (∀ rule, Rule.parse text = .ok rule ↔
      Grammar.WritesRule (scan.tokens.map Token.lexeme) rule ∧
        ¬ ∃ before rest, scan.tokens = before ++ rest ∧ Grammar.OverflowsSalience before rest) ∧
    (∀ fault, Rule.parse text = .error fault → fault.isSyntax = true →
      ∃ before rest, scan.tokens = before ++ rest ∧
        Grammar.StopsRule Grammar.WritesRule before rest ∧
        (∀ other later, scan.tokens = other ++ later →
          Grammar.StopsRule Grammar.WritesRule other later → before = other) ∧
        (fault.cause ≠ .targetNoPath → fault.place = Grammar.here scan.finish rest) ∧
        (fault.cause = .targetNoPath → Grammar.AssignsToNoPath before rest fault.place)) ∧
    ∀ place,
      (∃ fault, Rule.parse text = .error fault ∧ fault.isSyntax = false ∧ fault.place = place) ↔
        ∃ before rest, scan.tokens = before ++ rest ∧ Grammar.OverflowsSalience before rest ∧
          place = Grammar.here scan.finish rest := by
  have read : Rule.parse text = Grammar.wholeRule scan.finish scan.tokens := by
    rw [Rule.parse, scanned]
  rw [read]
  refine ⟨fun rule => ⟨fun parsed => ?_, fun ⟨writes, fits⟩ => ?_⟩, ?_, fun place => ⟨?_, ?_⟩⟩
  · refine ⟨(Grammar.derives_of_wholeRule parsed).writesRule, ?_⟩
    rintro ⟨before, rest, split, overflows⟩
    obtain ⟨count, stopped⟩ := Grammar.wholeRule_of_overflows scan.finish overflows
    rw [← split, parsed] at stopped
    cases stopped
  · have derivation := writes.derives_or_overflows.resolve_right fits
    exact Grammar.wholeRule_of_derives scan.finish derivation rfl
  · intro fault failed isSyntax
    obtain ⟨before, rest, split, blames, -, stops⟩ := Grammar.blames_of_wholeRule failed
    refine ⟨before, rest, split, stops isSyntax, ?_, blames.place_eq, blames.assignsToNoPath⟩
    intro other later splitOther stopsOther
    exact (stops isSyntax).unique stopsOther (split.symm.trans splitOther)
  · rintro ⟨fault, failed, noSyntax, rfl⟩
    obtain ⟨before, rest, split, blames, -, -⟩ := Grammar.blames_of_wholeRule failed
    exact ⟨before, rest, split, blames.overflowsSalience noSyntax⟩
  · rintro ⟨before, rest, split, overflows, rfl⟩
    obtain ⟨count, stopped⟩ := Grammar.wholeRule_of_overflows scan.finish overflows
    exact ⟨_, split ▸ stopped, rfl, rfl⟩

/-- The text of a rule that assigns to a number. -/
private def assigningToNumber : String :=
  "rule r \x7b when true then a; 1 = 2; \x7d"

theorem Rule.parse_exact_assigningToNumber :
    ∃ scan before rest, Scan.strict assigningToNumber = .ok scan ∧
      Rule.parse assigningToNumber = .error ⟨.targetNoPath, ⟨27, 1, 28⟩⟩ ∧
      scan.tokens = before ++ rest ∧ Grammar.StopsRule Grammar.WritesRule before rest ∧
      Grammar.AssignsToNoPath before rest ⟨27, 1, 28⟩ := by
  have failed : Rule.parse assigningToNumber = .error ⟨.targetNoPath, ⟨27, 1, 28⟩⟩ :=
    eq_error_of_fault? (by decide +kernel)
  cases scanned : Scan.strict assigningToNumber with
  | error fault =>
      rw [Rule.parse, scanned] at failed
      cases failed
  | ok scan =>
      obtain ⟨before, rest, split, stops, -, -, atTarget⟩ :=
        (Rule.parse_exact scanned).2.1 _ failed rfl
      exact ⟨scan, before, rest, rfl, failed, split, stops, atTarget rfl⟩

/-- A numeral with one digit more than an integer is read from. -/
private def longNumeral : Numeral :=
  ⟨List.replicate (Number.digitBound + 1) '1', none⟩

private theorem longNumeral_isOverlong : longNumeral.isOverlong = true := by
  simp [Numeral.isOverlong, longNumeral]

/-- The lexemes of a rule with this numeral as its salience. -/
def longSalienceLexemes : List Lexeme :=
  [.keyword .rule, .name "x", .keyword .salience, .number longNumeral, .symbol .openBrace,
    .keyword .whenWord, .keyword .trueWord, .keyword .thenWord, .name "x", .symbol .semicolon,
    .symbol .closeBrace]

/-- The rule that they write. -/
private def longSalienceRule : Rule where
  name := "x"
  salience := Text.digitsValue longNumeral.whole
  condition := .bool true
  actions := [.fact "x"]
  description := none

private theorem longSalienceLexemes_isWritten : ∀ lexeme ∈ longSalienceLexemes, lexeme.IsWritten := by
  have name : (Lexeme.name "x").IsWritten :=
    ⟨'x', [], rfl, by decide +kernel, List.forall_mem_nil _, by decide⟩
  have digit : Text.isDigit '1' = true := by decide
  have numeral : (Lexeme.number longNumeral).IsWritten := by
    refine ⟨by simp [longNumeral], ?_, by simp [longNumeral], by simp [longNumeral]⟩
    intro c member
    rwa [List.eq_of_mem_replicate member]
  simp only [longSalienceLexemes, List.forall_mem_cons]
  exact ⟨trivial, name, trivial, numeral, trivial, trivial, trivial, trivial, name, trivial,
    trivial, List.forall_mem_nil _⟩

private theorem writesRule_longSalience : Grammar.WritesRule longSalienceLexemes longSalienceRule := by
  have condition : Grammar.Derives Grammar.leastPrecedence [.keyword .trueWord] (.bool true) :=
    (Grammar.Derives.atom rfl).loosen (by decide)
  have fact : Grammar.Derives Grammar.leastPrecedence [.name "x"] (.fact "x") :=
    (Grammar.Derives.atom rfl).loosen (by decide)
  have salience : Grammar.DerivesSalienceBy Numeral.natural?
      [.keyword .salience, .number longNumeral] longSalienceRule.salience := .positive rfl
  have actions : Grammar.DerivesActions ([.name "x", .symbol .semicolon] ++ [])
      longSalienceRule.actions := .cons (.evaluated fact) .nil
  have nonempty : longSalienceRule.actions ≠ [] := List.cons_ne_nil _ _
  exact .intro salience condition actions nonempty

theorem overflowsSalience_longSalience {tokens : List Token}
    (spelled : tokens.map Token.lexeme = longSalienceLexemes) :
    ∃ before rest, tokens = before ++ rest ∧ Grammar.OverflowsSalience before rest :=
  Grammar.overflowsSalience_of_lexemes (.inl rfl) longNumeral_isOverlong
    (spelled.trans (by rfl : _ = Grammar.headingLexemes "x" none [.keyword .salience] ++ _ :: _))

/-- Not every text of which the grammar makes a rule is read. -/
theorem Rule.not_all_written_are_read :
    ¬ ∀ text scan rule, Scan.strict text = .ok scan →
      Grammar.WritesRule (scan.tokens.map Token.lexeme) rule → Rule.parse text = .ok rule := by
  intro allRead
  obtain ⟨text, scan, scanned, spelled⟩ := Scan.exists_strict_eq_ok longSalienceLexemes_isWritten
  have read := allRead text scan longSalienceRule scanned (spelled ▸ writesRule_longSalience)
  obtain ⟨before, rest, split, overflows⟩ := overflowsSalience_longSalience spelled
  obtain ⟨count, stopped⟩ := Grammar.wholeRule_of_overflows scan.finish overflows
  rw [← split] at stopped
  rw [Rule.parse, scanned] at read
  cases stopped.symm.trans read

end Rulebook
