import Rulebook.Proofs.Computation
import Rulebook.Rule.Logic

/-!
# Plain forms

Plain forms of expressions and rules. An operator between two operands has a sign that is no other
key, so what is applied in a plain form can be told from its key alone; what was made plain is
therefore read as what it was, with every literal as it stood there.
-/

namespace Rulebook

/-! ## Expressions -/

namespace Expr

/-- The keys of plain forms that are no signs of operators between two operands. -/
def reservedKeys : List String :=
  ["str", "var", "field", "index", "!", "neg", "set"]

private theorem sign_not_mem_reservedKeys (op : BinaryOp) : op.sign ∉ reservedKeys := by
  rcases op with (_ | _ | _ | _) | (_ | _ | _ | _) | _ | _ | _ | _ <;> decide

theorem ofLogic_applied_sign (op : BinaryOp) (left right : Plain) :
    ofLogic (applied op.sign (.list [left, right])) =
      ofLogic left >>= fun leftExpr => ofLogic right >>= fun rightExpr =>
        .ok (binary op leftExpr rightExpr) := by
  have notReserved := sign_not_mem_reservedKeys op
  rw [applied, ofLogic]
  · rw [BinaryOp.ofSign?_sign]
  -- the other keys of plain forms are tried before the signs
  all_goals
    intro isKey
    rw [isKey] at notReserved
    exact notReserved (by decide)

theorem ofLogic_applied_unaryKey (op : UnaryOp) (operand : Plain) :
    ofLogic (applied (unaryKey op) operand) = (ofLogic operand).map (unary op) := by
  cases op <;> rw [unaryKey, applied, ofLogic]

/-! ### Arguments -/

/-- An argument of a list is found by its place and then read. -/
theorem ofItem_eq (place : Nat) (items : List Plain) :
    ofItem place items = found .argumentMissing items[place]? >>= ofLogic := by
  induction items generalizing place with
  | nil =>
      rw [ofItem, List.getElem?_nil]
      rfl
  | cons item items inductionHypothesis =>
      cases place with
      | zero =>
          rw [ofItem, List.getElem?_cons_zero]
          rfl
      | succ place => rw [ofItem, List.getElem?_cons_succ, inductionHypothesis]

/-- An argument of a mapping is found by its place as the key and then read. -/
theorem ofEntry_eq (place : Nat) (entries : List (Plain × Plain)) :
    ofEntry place entries =
      found .argumentsKeyed (Plain.findKey? (.integer place) entries) >>= ofLogic := by
  induction entries with
  | nil =>
      rw [ofEntry, Plain.findKey?, List.find?_nil, Option.map_none]
      rfl
  | cons entry entries inductionHypothesis =>
      obtain ⟨key, datum⟩ := entry
      rw [ofEntry, Plain.findKey?, List.find?_cons]
      cases Plain.sameKey key (.integer place) with
      | true => rfl
      | false => exact inductionHypothesis

theorem argument_bytes {place : Nat} {data : List UInt8} {datum : Plain}
    (read : argument place (.foreign (.bytes data)) = .ok datum) : ∃ n, datum = .integer n := by
  obtain ⟨byte, -, rfl⟩ := List.mem_map.1 (List.mem_of_getElem? (found_eq_ok_iff.1 read))
  exact ⟨byte.toNat, rfl⟩

/-- An argument is an item of a list or tuple, the datum under a key of a mapping, or a byte, which is
an integer. What is found elsewhere is a character, and no expression. -/
theorem argument_cases {place : Nat} {arguments datum : Plain}
    (read : argument place arguments = .ok datum) :
    (∃ items, (arguments = .list items ∨ arguments = .tuple items) ∧ items[place]? = some datum) ∨
      (∃ entries, arguments = .mapping entries ∧
        Plain.findKey? (.integer place) entries = some datum) ∨
      (∃ data n, arguments = .foreign (.bytes data) ∧ datum = .integer n) ∨
      ofLogic datum = .error (.invalid datum) := by
  have isMember {items : List Plain} {fault : LogicFault}
      (isFound : found fault items[place]? = .ok datum) : datum ∈ items :=
    List.mem_of_getElem? (found_eq_ok_iff.1 isFound)
  cases arguments with
  | list items => exact .inl ⟨items, .inl rfl, found_eq_ok_iff.1 read⟩
  | tuple items => exact .inl ⟨items, .inr rfl, found_eq_ok_iff.1 read⟩
  | mapping entries => exact .inr (.inl ⟨entries, rfl, found_eq_ok_iff.1 read⟩)
  | text text =>
      obtain ⟨c, -, rfl⟩ := List.mem_map.1 (isMember read)
      exact .inr (.inr (.inr rfl))
  | foreign foreign =>
      cases foreign with
      | bytes data =>
          obtain ⟨n, rfl⟩ := argument_bytes read
          exact .inr (.inr (.inl ⟨data, n, rfl, rfl⟩))
      | halfText half =>
          obtain ⟨⟨c, half?⟩, -, rfl⟩ := List.mem_map.1 (isMember read)
          cases half? <;> exact .inr (.inr (.inr rfl))
      | _ => cases read
  | _ => cases read

/-- An argument is found and then read, whatever holds the arguments. -/
theorem ofArgument_eq (place : Nat) (arguments : Plain) :
    ofArgument place arguments = argument place arguments >>= ofLogic := by
  rw [ofArgument.eq_def]
  split
  case h_1 items => exact ofItem_eq place items
  case h_2 items => exact ofItem_eq place items
  case h_3 entries => exact ofEntry_eq place entries
  case h_4 notList notTuple notMapping =>
    cases read : argument place arguments with
    | error fault => rfl
    | ok datum =>
        rcases argument_cases read with
          ⟨items, rfl | rfl, -⟩ | ⟨entries, rfl, -⟩ | ⟨-, n, -, rfl⟩ | isInvalid
        · exact absurd rfl (notList items)
        · exact absurd rfl (notTuple items)
        · exact absurd rfl (notMapping entries)
        · rfl
        · cases datum with
          | integer n => rfl
          | _ => exact isInvalid.symm

theorem ofArgument_of_argument {place : Nat} {arguments datum : Plain}
    (read : argument place arguments = .ok datum) :
    ofArgument place arguments = ofLogic datum := by
  rw [ofArgument_eq, read]
  rfl

/-- The plain form of an expression is read as the expression. -/
theorem ofLogic_toLogic (e : Expr) : ofLogic e.toLogic = .ok e := by
  induction e with
  | number x | bool holds | null | fact name => rfl
  | string text =>
      have isQuotable : quotable text.text = .ok text := by
        rw [quotable, Text.Quotable.of?_text]
      rw [toLogic, applied, ofLogic, isQuotable]
      rfl
  | field base name baseHypothesis =>
      rw [toLogic, applied, ofLogic, ofArgument, ofItem, baseHypothesis]
      rfl
  | element base index baseHypothesis indexHypothesis =>
      rw [toLogic, applied, ofLogic, ofArgument, ofItem, baseHypothesis, ofArgument, ofItem, ofItem,
        indexHypothesis]
      rfl
  | binary op left right leftHypothesis rightHypothesis =>
      rw [toLogic, ofLogic_applied_sign, leftHypothesis, rightHypothesis]
      rfl
  | unary op operand operandHypothesis =>
      rw [toLogic, ofLogic_applied_unaryKey, operandHypothesis]
      rfl
  | assign target value targetHypothesis valueHypothesis =>
      rw [toLogic, applied, ofLogic, ofArgument, ofItem, targetHypothesis, ofArgument, ofItem,
        ofItem, valueHypothesis]
      rfl

private theorem mapM_ofLogic_toLogic (actions : List Expr) :
    (actions.map toLogic).mapM ofLogic = .ok actions := by
  induction actions with
  | nil => rfl
  | cons action actions inductionHypothesis =>
      rw [List.map_cons, List.mapM_cons, ofLogic_toLogic, inductionHypothesis]
      rfl

end Expr

/-! ## Rules -/

namespace Rule

open Text (Quotable)

variable {rule : Rule} {entries : List (Plain × Plain)}

/-- A mapping is read as a rule where its entries are read as the parts of the rule. -/
theorem ofPlain_of_entries {condition : Plain} {actions : List Plain}
    (name : required "name" entries = .ok (.text rule.name))
    (salience : ((Plain.lookup? "salience" entries).getD (.integer 0)).toInteger =
      .ok rule.salience)
    (hasCondition : required "when" entries = .ok condition)
    (readsCondition : Expr.ofLogic condition = .ok rule.condition)
    (hasActions : ((Plain.lookup? "then" entries).getD (.list [])).members = .ok actions)
    (readsActions : actions.mapM Expr.ofLogic = .ok rule.actions)
    (description : readDescription (Plain.lookup? "description" entries) = .ok rule.description) :
    ofPlain (.mapping entries) = .ok rule := by
  rw [ofPlain]
  apply bind_eq_ok_iff.2 ⟨_, name, ?_⟩
  apply bind_eq_ok_iff.2 ⟨_, mapError_eq_ok salience, ?_⟩
  apply bind_eq_ok_iff.2 ⟨_, hasCondition, ?_⟩
  apply bind_eq_ok_iff.2 ⟨_, mapError_eq_ok readsCondition, ?_⟩
  apply bind_eq_ok_iff.2 ⟨_, mapError_eq_ok hasActions, ?_⟩
  apply bind_eq_ok_iff.2 ⟨_, mapError_eq_ok readsActions, ?_⟩
  exact bind_eq_ok_iff.2 ⟨_, description, rfl⟩

private theorem readDescription_text (quotable : Quotable) :
    readDescription (some (.text quotable.text)) = .ok (some quotable) := by
  rw [readDescription, Expr.quotable, Quotable.of?_text]
  rfl

/-- Rules and expressions survive their plain forms: what is read is what was made plain. -/
theorem ofPlain_toPlain (rule : Rule) :
    ofPlain rule.toPlain = .ok rule ∧ ∀ e : Expr, Expr.ofLogic e.toLogic = .ok e := by
  refine ⟨?_, Expr.ofLogic_toLogic⟩
  apply ofPlain_of_entries
  case name | salience | hasCondition | hasActions => rfl
  case readsCondition => exact Expr.ofLogic_toLogic rule.condition
  case readsActions => exact Expr.mapM_ofLogic_toLogic rule.actions
  case description =>
    obtain ⟨_, _, _, _, description⟩ := rule
    cases description with
    | none => rfl
    | some quotable => exact readDescription_text quotable

end Rule

end Rulebook
