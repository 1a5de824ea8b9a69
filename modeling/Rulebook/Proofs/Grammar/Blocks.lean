import Rulebook.Grammar.Document
import Rulebook.Proofs.Grammar.RuleExactness

/-!
# Blocks of a document

How the tokens of a document fall into blocks. No token is lost, and the keyword of a rule stands
only at the start of a block, so a block begins at this keyword whatever stands before it. A rule
has this keyword at its start, one opening brace, and one closing brace at its end; between any
other tokens it is therefore a block of its own.
-/

namespace Rulebook

open Text (Position)

/-- Whether a lexeme can stand behind the keyword of a rule, its braces apart. -/
def Lexeme.isInner : Lexeme → Bool
  | keyword .rule | symbol .openBrace | symbol .closeBrace | malformed _ => false
  | _ => true

namespace Grammar

/-! ## The lexemes of a rule -/

/-- Whether lexemes can all stand behind the keyword of a rule, its braces apart. -/
def AllInner (written : List Lexeme) : Prop :=
  ∀ lexeme ∈ written, lexeme.isInner = true

@[simp] theorem allInner_nil : AllInner [] :=
  List.forall_mem_nil _

@[simp] theorem allInner_cons {lexeme : Lexeme} {written : List Lexeme} :
    AllInner (lexeme :: written) ↔ lexeme.isInner = true ∧ AllInner written :=
  List.forall_mem_cons

@[simp] theorem allInner_append {written more : List Lexeme} :
    AllInner (written ++ more) ↔ AllInner written ∧ AllInner more :=
  List.forall_mem_append

/-- `IsEnclosed written` means that the lexemes are the keyword of a rule, what stands before its
braces, and what stands between them. -/
inductive IsEnclosed : List Lexeme → Prop
  | intro {heading inside : List Lexeme} :
      AllInner heading →
      AllInner inside →
      IsEnclosed
        (.keyword .rule :: (heading ++ .symbol .openBrace :: (inside ++ [.symbol .closeBrace])))

variable {written : List Lexeme}

private theorem isInner_of_atom? {lexeme : Lexeme} {e : Expr} (found : atom? lexeme = some e) :
    lexeme.isInner = true := by
  cases lexeme with
  | keyword word =>
      cases word with
      | rule => cases found
      | _ => rfl
  | symbol sign | malformed fault => cases found
  | _ => rfl

private theorem isInner_of_binary? {symbol : Symbol} {op : BinaryOp}
    (operator : symbol.binary? = some op) : (Lexeme.symbol symbol).isInner = true := by
  cases symbol with
  | openBrace | closeBrace => cases operator
  | _ => rfl

theorem Derives.allInner {level : Nat} {e : Expr} (derivation : Derives level written e) :
    AllInner written := by
  induction derivation with
  | tighter _ inductionHypothesis => exact inductionHypothesis
  | binary operator _ _ beforeInner behindInner =>
      simp [beforeInner, behindInner, isInner_of_binary? operator]
  | not _ operandInner => simp [operandInner, Lexeme.isInner]
  | minus _ operandInner => simp [operandInner, Lexeme.isInner]
  | field _ baseInner => simp [baseInner, Lexeme.isInner]
  | element _ _ baseInner indexInner => simp [baseInner, indexInner, Lexeme.isInner]
  | atom found => simp [isInner_of_atom? found]
  | parenthesized _ innerInner => simp [innerInner, Lexeme.isInner]

theorem DerivesAction.allInner {action : Expr} (derivation : DerivesAction written action) :
    AllInner written := by
  cases derivation with
  | evaluated derivation => simp [derivation.allInner, Lexeme.isInner]
  | assigned derivesTarget _ derivesValue =>
      simp [derivesTarget.allInner, derivesValue.allInner, Lexeme.isInner]

theorem DerivesActions.allInner {actions : List Expr}
    (derivation : DerivesActions written actions) : AllInner written := by
  induction derivation with
  | nil => exact allInner_nil
  | cons derivesFirst _ othersInner => exact allInner_append.2 ⟨derivesFirst.allInner, othersInner⟩

theorem DerivesSalienceBy.allInner {natural? : Numeral → Option Nat} {salience : Int}
    (derivation : DerivesSalienceBy natural? written salience) :
    AllInner written := by
  cases derivation <;> simp [Lexeme.isInner]

/-- A rule is enclosed: it begins with its keyword, and its braces are its own. -/
theorem DerivesRule.isEnclosed {rule : Rule} (derivation : DerivesRule written rule) :
    IsEnclosed written := by
  obtain @⟨salienceLexemes, conditionLexemes, actionLexemes, _, derivesSalience, derivesCondition,
    derivesActions, _⟩ := derivation
  have descriptionInner : AllInner (descriptionLexemes rule.description) := by
    cases rule.description <;> simp [descriptionLexemes, Lexeme.isInner]
  have headingInner : AllInner
      (.name rule.name :: (descriptionLexemes rule.description ++ salienceLexemes)) := by
    simp [descriptionInner, derivesSalience.allInner, Lexeme.isInner]
  have insideInner : AllInner
      (.keyword .whenWord :: (conditionLexemes ++ .keyword .thenWord :: actionLexemes)) := by
    simp [derivesCondition.allInner, derivesActions.allInner, Lexeme.isInner]
  have enclosed := IsEnclosed.intro headingInner insideInner
  simpa using enclosed

end Grammar

namespace Document

open Grammar (AllInner IsEnclosed lexemes allInner_cons)

/-! ## Splitting token by token -/

section Step

variable {block rest : List Token} {depth : Int} {token : Token}

theorem beginsRule_iff : beginsRule token = true ↔ token.lexeme = .keyword .rule :=
  beq_iff_eq

private theorem splitFrom_rule (begins : beginsRule token = true) (nonempty : block ≠ []) :
    splitFrom block depth (token :: rest) = block :: splitFrom [token] 0 rest := by
  simp [splitFrom, begins, nonempty]

theorem splitFrom_nil_rule (begins : beginsRule token = true) :
    splitFrom [] depth (token :: rest) = splitFrom [token] depth rest := by
  have isKeyword := beginsRule_iff.1 begins
  simp [splitFrom, isKeyword]

private theorem splitFrom_open (isOpen : token.lexeme = .symbol .openBrace) :
    splitFrom block depth (token :: rest) = splitFrom (block ++ [token]) (depth + 1) rest := by
  simp [splitFrom, beginsRule, isOpen]

private theorem splitFrom_close (isClose : token.lexeme = .symbol .closeBrace) :
    splitFrom block 1 (token :: rest) = (block ++ [token]) :: blocks rest := by
  simp [splitFrom, blocks, beginsRule, isClose]

private theorem splitFrom_inner (inner : token.lexeme.isInner = true) :
    splitFrom block depth (token :: rest) = splitFrom (block ++ [token]) depth rest := by
  have noRule : beginsRule token = false := by
    apply Bool.eq_false_iff.2
    intro begins
    rw [beginsRule_iff.1 begins] at inner
    cases inner
  have noOpen : token.lexeme ≠ .symbol .openBrace := by
    intro isOpen
    rw [isOpen] at inner
    cases inner
  have noClose : token.lexeme ≠ .symbol .closeBrace := by
    intro isClose
    rw [isClose] at inner
    cases inner
  simp [splitFrom, noRule, noOpen, noClose]

theorem splitFrom_append_inner {inside : List Token} (inner : AllInner (lexemes inside)) :
    splitFrom block depth (inside ++ rest) = splitFrom (block ++ inside) depth rest := by
  induction inside generalizing block with
  | nil => rw [List.nil_append, List.append_nil]
  | cons token others inductionHypothesis =>
      obtain ⟨tokenInner, othersInner⟩ := allInner_cons.1 inner
      rw [List.cons_append, splitFrom_inner tokenInner, inductionHypothesis othersInner,
        List.append_assoc, List.singleton_append]

private theorem splitFrom_heading {heading : List Token} (place : Position)
    (inner : AllInner (lexemes heading)) :
    splitFrom block 0 (heading ++ ⟨.symbol .openBrace, place⟩ :: rest) =
      splitFrom (block ++ heading ++ [⟨.symbol .openBrace, place⟩]) 1 rest := by
  rw [splitFrom_append_inner inner, splitFrom_open rfl, Int.zero_add]

private theorem splitFrom_inside {inside : List Token} (place : Position)
    (inner : AllInner (lexemes inside)) :
    splitFrom block 1 (inside ++ ⟨.symbol .closeBrace, place⟩ :: rest) =
      (block ++ inside ++ [⟨.symbol .closeBrace, place⟩]) :: blocks rest := by
  rw [splitFrom_append_inner inner, splitFrom_close rfl]

end Step

/-! ## All tokens -/

/-- No token is lost or moved where tokens are split. -/
theorem flatten_splitFrom (block : List Token) (depth : Int) (tokens : List Token) :
    (splitFrom block depth tokens).flatten = block ++ tokens := by
  fun_induction splitFrom block depth tokens with
  | case1 block _ isEmpty => simp_all
  | case2 block => simp
  | case3 block _ token tokens _ inductionHypothesis => simp [inductionHypothesis]
  | case4 block _ token tokens _ _ inductionHypothesis => simp [inductionHypothesis]
  | case5 block token tokens _ _ _ inductionHypothesis => simp [inductionHypothesis]
  | case6 block _ token tokens _ _ _ _ inductionHypothesis => simp [inductionHypothesis]
  | case7 block _ token tokens _ _ _ inductionHypothesis => simp [inductionHypothesis]

/-- Whether no token behind the first one begins a rule. -/
def BeginsOnce (block : List Token) : Prop :=
  ∀ token ∈ block.tail, token.lexeme ≠ .keyword .rule

theorem beginsOnce_singleton (token : Token) : BeginsOnce [token] :=
  List.forall_mem_nil _

theorem BeginsOnce.snoc {block : List Token} {token : Token} (beginsOnce : BeginsOnce block)
    (goesOn : ¬ (beginsRule token && !block.isEmpty) = true) : BeginsOnce (block ++ [token]) := by
  cases block with
  | nil => exact beginsOnce_singleton token
  | cons first others =>
      have noRule : token.lexeme ≠ .keyword .rule := by
        intro isKeyword
        exact goesOn (by simp [beginsRule_iff.2 isKeyword])
      intro other member
      rcases List.mem_append.1 member with old | new
      · exact beginsOnce other old
      · rwa [List.mem_singleton.1 new]

theorem beginsOnce_of_mem_splitFrom {block : List Token} {depth : Int} {tokens : List Token}
    (beginsOnce : BeginsOnce block) :
    ∀ found ∈ splitFrom block depth tokens, found ≠ [] ∧ BeginsOnce found := by
  fun_induction splitFrom block depth tokens with
  | case1 block _ isEmpty => exact List.forall_mem_nil _
  | case2 block _ nonempty =>
      have someTokens : block ≠ [] := by
        simpa using nonempty
      exact List.forall_mem_singleton.2 ⟨someTokens, beginsOnce⟩
  | case3 block _ token tokens begins inductionHypothesis =>
      have someTokens : block ≠ [] := by
        simp_all
      have others := inductionHypothesis (beginsOnce_singleton token)
      exact List.forall_mem_cons.2 ⟨⟨someTokens, beginsOnce⟩, others⟩
  | case4 block _ token tokens goesOn _ inductionHypothesis =>
      exact inductionHypothesis (beginsOnce.snoc goesOn)
  | case5 block token tokens goesOn _ _ inductionHypothesis =>
      have others := inductionHypothesis (List.forall_mem_nil _)
      exact List.forall_mem_cons.2 ⟨⟨by simp, beginsOnce.snoc goesOn⟩, others⟩
  | case6 block _ token tokens goesOn _ _ _ inductionHypothesis =>
      exact inductionHypothesis (beginsOnce.snoc goesOn)
  | case7 block _ token tokens goesOn _ _ inductionHypothesis =>
      exact inductionHypothesis (beginsOnce.snoc goesOn)

/-- Behind any tokens the keyword of a rule begins a block. No braces count before a block has
tokens. -/
theorem splitFrom_append_rule {block : List Token} {depth : Int} {tokens : List Token}
    {token : Token} {rest : List Token} (begins : beginsRule token = true)
    (fresh : block = [] → depth = 0) :
    splitFrom block depth (tokens ++ token :: rest) =
      splitFrom block depth tokens ++ blocks (token :: rest) := by
  have alone : blocks (token :: rest) = splitFrom [token] 0 rest := splitFrom_nil_rule begins
  fun_induction splitFrom block depth tokens with
  | case1 block depth isEmpty =>
      have noTokens : block = [] := by
        simpa using isEmpty
      rw [fresh noTokens, noTokens]
      rfl
  | case2 block _ nonempty =>
      have someTokens : block ≠ [] := by
        simpa using nonempty
      rw [List.nil_append, splitFrom_rule begins someTokens, alone, List.singleton_append]
  | case3 block _ other tokens beginsOther inductionHypothesis =>
      rw [List.cons_append, splitFrom, if_pos beginsOther, inductionHypothesis (by simp),
        List.cons_append]
  | case4 block _ other tokens goesOn isOpen inductionHypothesis =>
      rw [List.cons_append, splitFrom, if_neg goesOn, if_pos isOpen, inductionHypothesis (by simp)]
  | case5 block other tokens goesOn noOpen isClose inductionHypothesis =>
      rw [List.cons_append, splitFrom, if_neg goesOn, if_neg noOpen, if_pos isClose, if_pos rfl,
        inductionHypothesis (fun _ => rfl), List.cons_append]
  | case6 block _ other tokens goesOn noOpen isClose notLast inductionHypothesis =>
      rw [List.cons_append, splitFrom, if_neg goesOn, if_neg noOpen, if_pos isClose,
        if_neg notLast, inductionHypothesis (by simp)]
  | case7 block _ other tokens goesOn noOpen noClose inductionHypothesis =>
      rw [List.cons_append, splitFrom, if_neg goesOn, if_neg noOpen, if_neg noClose,
        inductionHypothesis (by simp)]

/-- A rule is a block of its own, whatever stands behind it. -/
theorem blocks_enclosed {tokens rest : List Token} (enclosed : IsEnclosed (lexemes tokens)) :
    blocks (tokens ++ rest) = tokens :: blocks rest := by
  generalize spelled : lexemes tokens = written at enclosed
  cases enclosed with
  | intro headingInner insideInner =>
      obtain ⟨rulePlace, behindRule, rfl, spelledBehindRule⟩ :=
        Grammar.exists_token_of_map_eq_cons spelled
      obtain ⟨heading, behindHeading, rfl, rfl, spelledBehindHeading⟩ :=
        List.map_eq_append_iff.1 spelledBehindRule
      obtain ⟨openPlace, behindOpen, rfl, spelledBehindOpen⟩ :=
        Grammar.exists_token_of_map_eq_cons spelledBehindHeading
      obtain ⟨inside, closing, rfl, rfl, spelledClosing⟩ :=
        List.map_eq_append_iff.1 spelledBehindOpen
      obtain ⟨closePlace, last, rfl, spelledLast⟩ :=
        Grammar.exists_token_of_map_eq_cons spelledClosing
      obtain rfl : last = [] := List.map_eq_nil_iff.1 spelledLast
      have begins : beginsRule ⟨.keyword .rule, rulePlace⟩ = true := rfl
      rw [blocks, List.cons_append, splitFrom_nil_rule begins, List.append_assoc,
        List.cons_append, List.append_assoc, List.singleton_append,
        splitFrom_heading openPlace headingInner, splitFrom_inside closePlace insideInner]
      simp

private theorem beginsRule_of_enclosed {tokens : List Token} (enclosed : IsEnclosed (lexemes tokens)) :
    ∃ token others, tokens = token :: others ∧ beginsRule token = true := by
  generalize spelled : lexemes tokens = written at enclosed
  cases enclosed with
  | intro headingInner insideInner =>
      obtain ⟨place, others, rfl, _⟩ := Grammar.exists_token_of_map_eq_cons spelled
      exact ⟨⟨.keyword .rule, place⟩, others, rfl, rfl⟩

/-- A rule between other tokens is a block between theirs. -/
theorem blocks_append_enclosed {tokens : List Token} (before behind : List Token)
    (enclosed : IsEnclosed (lexemes tokens)) :
    blocks (before ++ tokens ++ behind) = blocks before ++ tokens :: blocks behind := by
  obtain ⟨token, others, rfl, begins⟩ := beginsRule_of_enclosed enclosed
  have split : blocks (before ++ (token :: others ++ behind)) =
      blocks before ++ blocks (token :: others ++ behind) :=
    splitFrom_append_rule begins fun _ => rfl
  rw [List.append_assoc, split, blocks_enclosed enclosed]

/-- The blocks of a document have all its tokens in their order, at least one each, and the keyword
of a rule only in front. What can be read as one rule is one block between those of the tokens
before it and behind it, whatever these are. -/
theorem blocks_isolate_rules (tokens : List Token) :
    (∀ block ∈ blocks tokens, block ≠ [] ∧
      ∀ token ∈ block.tail, token.lexeme ≠ .keyword .rule) ∧
    (blocks tokens).flatten = tokens ∧
    ∀ (finish : Position) (rule : Rule), Grammar.wholeRule finish tokens = .ok rule →
      ∀ before behind : List Token,
        blocks (before ++ tokens ++ behind) = blocks before ++ tokens :: blocks behind := by
  refine ⟨beginsOnce_of_mem_splitFrom (List.forall_mem_nil _), flatten_splitFrom [] 0 tokens, ?_⟩
  intro finish rule read before behind
  have derivation := Grammar.derives_of_wholeRule read
  exact blocks_append_enclosed before behind derivation.isEnclosed

/-- Tokens whose places do not matter. -/
def unplaced (written : List Lexeme) : List Token :=
  written.map (⟨·, .start⟩)

/-- A rule that only looks at a fact. -/
def look : Rule :=
  .undescribed "look" 0 (.bool true) [.fact "x"]

def looking : List Token :=
  unplaced [.keyword .rule, .name "look", .symbol .openBrace, .keyword .whenWord,
    .keyword .trueWord, .keyword .thenWord, .name "x", .symbol .semicolon, .symbol .closeBrace]

theorem derivesRule_look : Grammar.DerivesRule (lexemes looking) look := by
  have condition : Grammar.Derives Grammar.leastPrecedence [.keyword .trueWord] (.bool true) :=
    (Grammar.Derives.atom rfl).loosen (by decide)
  have value : Grammar.Derives Grammar.leastPrecedence [.name "x"] (.fact "x") :=
    (Grammar.Derives.atom rfl).loosen (by decide)
  have actions : Grammar.DerivesActions [.name "x", .symbol .semicolon] [.fact "x"] :=
    .cons (.evaluated value) .nil
  have nonempty : look.actions ≠ [] := by
    decide
  exact .intro .omitted condition actions nonempty

/-- Tokens with braces that do not belong together, in a rule that does not end. -/
private def astray : List Token :=
  unplaced [.symbol .closeBrace, .keyword .rule, .symbol .openBrace, .malformed .openString,
    .symbol .openBrace]

theorem blocks_isolate_rules_looking :
    (looking ∈ blocks looking ∧ looking ≠ [] ∧
      ∀ token ∈ looking.tail, token.lexeme ≠ .keyword .rule) ∧
    (blocks looking).flatten = looking ∧
    Grammar.wholeRule .start looking = .ok look ∧
      blocks (astray ++ looking ++ astray) = blocks astray ++ looking :: blocks astray := by
  have read := Grammar.wholeRule_of_derives .start derivesRule_look rfl
  have member : looking ∈ blocks looking := by decide
  obtain ⟨inBlocks, allTokens, isolated⟩ := blocks_isolate_rules looking
  exact ⟨⟨member, inBlocks looking member⟩, allTokens, read, isolated .start _ read astray astray⟩

end Document

end Rulebook
