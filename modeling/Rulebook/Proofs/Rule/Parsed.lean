import Rulebook.Proofs.Grammar.Documents
import Rulebook.Proofs.Rule.RoundTrip

/-!
# Rules that are read from a text

Where assignments stand in rules that are read from a text. No expression of the grammar has one, so
they stand only at the top of actions, and there what is assigned to is a path.
-/

namespace Rulebook

namespace Grammar

variable {written : List Lexeme} {e action : Expr} {rule : Rule}

/-! ## Expressions -/

private theorem hasAssignment_of_atom? {lexeme : Lexeme} (found : atom? lexeme = some e) :
    e.hasAssignment = false := by
  have plain : e.isAssignment = false ∧ e.children = [] := by
    cases lexeme with
    | keyword word =>
        cases word <;> simp only [atom?, Option.some.injEq, reduceCtorEq] at found <;>
          exact found ▸ ⟨rfl, rfl⟩
    | symbol sign | malformed fault => cases found
    | _ =>
        cases found
        exact ⟨rfl, rfl⟩
  apply Expr.hasAssignment_eq_false_iff.2
  rw [plain.2]
  exact ⟨plain.1, fun child member => absurd member List.not_mem_nil⟩

theorem hasAssignment_unary {op : UnaryOp} (free : e.hasAssignment = false) :
    (Expr.unary op e).hasAssignment = false :=
  Expr.hasAssignment_eq_false_iff.2 ⟨rfl, by simp [Expr.children, free]⟩

private theorem hasAssignment_negation (free : e.hasAssignment = false) :
    (negation e).hasAssignment = false := by
  cases e with
  | number x =>
      exact Expr.hasAssignment_eq_false_iff.2 ⟨rfl, fun child member => absurd member List.not_mem_nil⟩
  | _ => exact hasAssignment_unary free

/-- No expression that can be written as one holds an assignment. -/
theorem Derives.hasAssignment_eq_false {level : Nat} (derivation : Derives level written e) :
    e.hasAssignment = false := by
  induction derivation with
  | tighter _ inductionHypothesis => exact inductionHypothesis
  | binary _ _ _ leftFree rightFree =>
      exact Expr.hasAssignment_eq_false_iff.2 ⟨rfl, by simp [Expr.children, leftFree, rightFree]⟩
  | not _ operandFree => exact hasAssignment_unary operandFree
  | minus _ operandFree => exact hasAssignment_negation operandFree
  | field _ baseFree => exact Expr.hasAssignment_eq_false_iff.2 ⟨rfl, by simp [Expr.children, baseFree]⟩
  | element _ _ baseFree indexFree =>
      exact Expr.hasAssignment_eq_false_iff.2 ⟨rfl, by simp [Expr.children, baseFree, indexFree]⟩
  | atom found => exact hasAssignment_of_atom? found
  | parenthesized _ innerFree => exact innerFree

/-! ## Actions and rules -/

theorem DerivesAction.isAction (derivation : DerivesAction written action) : action.IsAction := by
  cases derivation with
  | evaluated derivation => exact .evaluated derivation.hasAssignment_eq_false
  | assigned derivesTarget path derivesValue =>
      exact .assigned path derivesTarget.hasAssignment_eq_false
        derivesValue.hasAssignment_eq_false

theorem DerivesActions.areActions {actions : List Expr}
    (derivation : DerivesActions written actions) : ∀ action ∈ actions, action.IsAction := by
  induction derivation with
  | nil => exact fun _ member => absurd member List.not_mem_nil
  | cons derivesFirst _ othersAreActions =>
      exact List.forall_mem_cons.2 ⟨derivesFirst.isAction, othersAreActions⟩

/-- In a rule that can be written, assignments stand on top of actions alone. -/
theorem DerivesRule.assigns_on_top (derivation : DerivesRule written rule) :
    rule.condition.hasAssignment = false ∧ ∀ action ∈ rule.actions, action.IsAction := by
  obtain ⟨_, derivesCondition, derivesActions, _⟩ := derivation
  exact ⟨derivesCondition.hasAssignment_eq_false, derivesActions.areActions⟩

end Grammar

/-! ## Rules that are read -/

namespace Document

private theorem exists_derives_of_mem_ofBlocks {finish : Text.Position} {found : List (List Token)}
    {rule : Rule} (member : rule ∈ (ofBlocks finish found).rules) :
    ∃ block ∈ found, Grammar.DerivesRule (Grammar.lexemes block) rule := by
  induction found with
  | nil => cases member
  | cons block found inductionHypothesis =>
      cases read : readBlock finish block with
      | error fault =>
          rw [ofBlocks_error read] at member
          obtain ⟨later, isLater, derivation⟩ := inductionHypothesis member
          exact ⟨later, List.mem_cons_of_mem block isLater, derivation⟩
      | ok first =>
          rw [ofBlocks_ok read] at member
          rcases List.mem_cons.1 member with isFirst | isLater
          · rw [isFirst]
            exact ⟨block, List.mem_cons_self, readBlock_eq_ok_iff.1 read⟩
          · obtain ⟨later, inLater, derivation⟩ := inductionHypothesis isLater
            exact ⟨later, List.mem_cons_of_mem block inLater, derivation⟩

/-- The tokens that write a rule of a document are tokens of the document. -/
theorem exists_derives_of_mem_parse {text : String} {rule : Rule}
    (member : rule ∈ (parse text).rules) :
    ∃ written, Grammar.DerivesRule written rule ∧
      ∀ lexeme ∈ written, lexeme ∈ (Scan.lenient text).tokens.map Token.lexeme := by
  obtain ⟨block, isBlock, derivation⟩ := exists_derives_of_mem_ofBlocks member
  refine ⟨_, derivation, fun lexeme inBlock => ?_⟩
  obtain ⟨token, isToken, same⟩ := List.mem_map.1 inBlock
  have inDocument : token ∈ (blocks (Scan.lenient text).tokens).flatten :=
    List.mem_flatten.2 ⟨block, isBlock, isToken⟩
  rw [blocks, flatten_splitFrom, List.nil_append] at inDocument
  exact List.mem_map.2 ⟨token, inDocument, same⟩

theorem name_ne_empty_of_mem_parse {text : String} {rule : Rule}
    (member : rule ∈ (parse text).rules) : rule.name ≠ "" := by
  obtain ⟨written, derivation, inDocument⟩ := exists_derives_of_mem_parse member
  have isWritten : .name rule.name ∈ written := by
    cases derivation
    exact List.mem_cons_of_mem _ List.mem_cons_self
  exact Scan.name_ne_empty_of_mem (inDocument _ isWritten)

end Document

namespace Rule

/-- Whether a rule is read from some text, alone or with the other rules of a document. -/
def IsParsed (rule : Rule) : Prop :=
  (∃ text, Rule.parse text = .ok rule) ∨ ∃ text, rule ∈ (Document.parse text).rules

theorem IsParsed.assigns_on_top {rule : Rule} (parsed : rule.IsParsed) :
    rule.condition.hasAssignment = false ∧ ∀ action ∈ rule.actions, action.IsAction := by
  rcases parsed with ⟨text, isRead⟩ | ⟨text, member⟩
  · exact (Document.parse_rule_eq_ok_iff.1 isRead).assigns_on_top
  · obtain ⟨_, derivation, _⟩ := Document.exists_derives_of_mem_parse member
    exact derivation.assigns_on_top

end Rule

end Rulebook
