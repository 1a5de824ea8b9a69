import Rulebook.Proofs.Grammar.RuleCompleteness
import Rulebook.Proofs.Grammar.Recognition

/-!
# Beginnings of rules

Beginnings of rules. Lexemes begin a rule when others behind them complete it. An opening is a rule
up to a place where an action or the closing brace stands; whatever begins an action behind it, and
every part of it from its start, begins a rule.
-/

namespace Rulebook.Grammar

open Text (Position Quotable)

/-- Whether lexemes begin something that is written. -/
def Begins (derives : List Lexeme → Rule → Prop) (written : List Lexeme) : Prop :=
  ∃ completion rule, derives (written ++ completion) rule

/-- Whether lexemes begin a rule. -/
abbrev BeginsRule : List Lexeme → Prop := Begins DerivesRule

theorem BeginsRule.of_append {written more : List Lexeme} (begins : BeginsRule (written ++ more)) :
    BeginsRule written := by
  obtain ⟨completion, rule, derivation⟩ := begins
  exact ⟨more ++ completion, rule, List.append_assoc .. ▸ derivation⟩

/-- A whole rule is the beginning of one. -/
theorem DerivesRule.begins {written : List Lexeme} {rule : Rule}
    (derivation : DerivesRule written rule) : BeginsRule written :=
  ⟨[], rule, (List.append_nil written).symm ▸ derivation⟩

/-- Whether what begins an expression also begins a rule behind lexemes that were read before. -/
def AdmitsExpression (past : List Lexeme) : Prop :=
  ∀ written completion e, Derives leastPrecedence (written ++ completion) e →
    BeginsRule (past ++ written)

namespace AdmitsExpression

variable {past written : List Lexeme} {e : Expr}

theorem behind (admits : AdmitsExpression past) (derivation : Derives leastPrecedence written e) :
    BeginsRule (past ++ written) :=
  admits written [] e ((List.append_nil written).symm ▸ derivation)

theorem begins (admits : AdmitsExpression past) : BeginsRule past := by
  have literal : Derives leastPrecedence [.keyword .trueWord] (.bool true) :=
    (Derives.atom rfl).loosen (by decide)
  exact (admits.behind literal).of_append

end AdmitsExpression

/-- The lexemes of a rule in front of its opening brace, given those of its salience. -/
def headingLexemes (name : String) (description : Option Quotable)
    (salienceLexemes : List Lexeme) : List Lexeme :=
  .keyword .rule :: .name name :: (descriptionLexemes description ++ salienceLexemes)

/-- Whether lexemes begin a rule and end in the keyword of its salience, or in the sign behind it. -/
def EndsInSalience (written : List Lexeme) : Prop :=
  ∃ name description sign, (sign = [] ∨ sign = [.symbol .minus]) ∧
    written = headingLexemes name description (.keyword .salience :: sign)

theorem EndsInSalience.openBrace_notMem {written : List Lexeme} (ends : EndsInSalience written) :
    .symbol .openBrace ∉ written := by
  obtain ⟨name, description, sign, isSign, rfl⟩ := ends
  rcases isSign with rfl | rfl <;> cases description <;>
    simp [headingLexemes, descriptionLexemes]

/-- A rule with more actions behind its own. -/
def extended (rule : Rule) (more : List Expr) : Rule :=
  { rule with actions := rule.actions ++ more }

theorem extended_extended (rule : Rule) (more others : List Expr) :
    extended (extended rule more) others = extended rule (more ++ others) := by
  simp [extended]

/-- `DerivesOpening written rule` means that the lexemes write a rule up to an action or its closing
brace; `rule` has the actions that they write completely, perhaps none. -/
inductive DerivesOpening : List Lexeme → Rule → Prop
  | intro {name : String} {description : Option Quotable} {salience : Int} {condition : Expr}
      {actions : List Expr} {salienceLexemes conditionLexemes actionLexemes : List Lexeme} :
      DerivesSalience salienceLexemes salience →
      Derives leastPrecedence conditionLexemes condition →
      DerivesActions actionLexemes actions →
      DerivesOpening
        (headingLexemes name description salienceLexemes ++
          .symbol .openBrace :: .keyword .whenWord ::
            (conditionLexemes ++ .keyword .thenWord :: actionLexemes))
        ⟨name, salience, condition, actions, description⟩

theorem DerivesActions.snoc {written last : List Lexeme} {actions : List Expr} {action : Expr}
    (derivation : DerivesActions written actions) (derivesLast : DerivesAction last action) :
    DerivesActions (written ++ last) (actions ++ [action]) := by
  induction derivation with
  | nil => simpa using DerivesActions.cons derivesLast .nil
  | cons derivesFirst _ inductionHypothesis =>
      rw [List.append_assoc]
      exact .cons derivesFirst inductionHypothesis

namespace DerivesOpening

variable {past written : List Lexeme} {rule : Rule} {e : Expr}

theorem snoc (opening : DerivesOpening past rule) (derivation : DerivesAction written e) :
    DerivesOpening (past ++ written) (extended rule [e]) := by
  obtain ⟨derivesSalience, derivesCondition, derivesActions⟩ := opening
  simp only [List.append_assoc, List.cons_append]
  exact .intro derivesSalience derivesCondition (derivesActions.snoc derivation)

/-- A closing brace behind an opening with actions makes a rule. -/
theorem close (opening : DerivesOpening past rule) (nonempty : rule.actions ≠ []) :
    DerivesRule (past ++ [.symbol .closeBrace]) rule := by
  obtain ⟨derivesSalience, derivesCondition, derivesActions⟩ := opening
  have derivation := DerivesRuleBy.intro derivesSalience derivesCondition derivesActions nonempty
  simpa [headingLexemes] using derivation

theorem begins_action (opening : DerivesOpening past rule) {completion : List Lexeme}
    (derivation : DerivesAction (written ++ completion) e) : BeginsRule (past ++ written) := by
  have closed := (opening.snoc derivation).close (by simp [extended])
  rw [← List.append_assoc] at closed
  exact closed.begins.of_append.of_append

theorem admitsExpression (opening : DerivesOpening past rule) : AdmitsExpression past := by
  intro written completion e derivation
  have isAction : DerivesAction (written ++ completion ++ [.symbol .semicolon]) e :=
    .evaluated derivation
  rw [List.append_assoc] at isAction
  exact opening.begins_action isAction

theorem openBrace_mem (opening : DerivesOpening past rule) : .symbol .openBrace ∈ past := by
  obtain ⟨_, _, _⟩ := opening
  simp

theorem begins (opening : DerivesOpening past rule) : BeginsRule past :=
  opening.admitsExpression.begins

theorem admitsValue (opening : DerivesOpening past rule) {target : Expr}
    (derivesTarget : Derives leastPrecedence written target) (path : target.isPath = true) :
    AdmitsExpression (past ++ written ++ [.symbol .assign]) := by
  intro value completion e derivation
  have isAction : DerivesAction
      ((written ++ .symbol .assign :: value) ++ (completion ++ [.symbol .semicolon]))
      (.assign target e) := by
    simpa using DerivesAction.assigned derivesTarget path derivation
  simpa using opening.begins_action isAction

end DerivesOpening

/-! ## In front of the actions -/

section Heading

variable {name : String} {description : Option Quotable} {salienceLexemes : List Lexeme}
  {salience : Int}

theorem admitsCondition (derivesSalience : DerivesSalience salienceLexemes salience) :
    AdmitsExpression (headingLexemes name description salienceLexemes ++
      [.symbol .openBrace] ++ [.keyword .whenWord]) := by
  intro written completion e derivation
  have opening : DerivesOpening _ ⟨name, salience, e, [], description⟩ :=
    .intro derivesSalience derivation .nil
  have begun : BeginsRule ((headingLexemes name description salienceLexemes ++
      [.symbol .openBrace] ++ [.keyword .whenWord] ++ written) ++
        (completion ++ [.keyword .thenWord])) := by
    simpa using opening.begins
  exact begun.of_append

theorem begins_heading (derivesSalience : DerivesSalience salienceLexemes salience) :
    BeginsRule (headingLexemes name description salienceLexemes) :=
  (admitsCondition derivesSalience).begins.of_append.of_append

end Heading

end Rulebook.Grammar
