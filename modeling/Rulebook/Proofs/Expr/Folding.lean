import Rulebook.Proofs.Expr.Walk
import Rulebook.Proofs.Expr.Written

/-!
# Printing and reading expressions

Printing an expression and reading its text. What is read is the expression with the negations of
its number literals taken as literals, since a minus in front of a number is read as its sign.
-/

namespace Rulebook

open Grammar (leastPrecedence accessLevel primaryLevel)

/-- A number that its literal is read back as. -/
structure Number.ReadsBack (x : Float) : Prop where
  finite : ∃ negative mantissa exponent, Number.parts x = .finite negative mantissa exponent
  parse : Expr.parse (Number.literal x) = .ok (.number x)

namespace Expr

/-- An expression with each negation of a number literal as a literal, from the leaves on. -/
def folded : Expr → Expr
  | unary .negate operand =>
    match operand.folded with
    | number x => number (-x)
    | other => unary .negate other
  | unary .not operand => unary .not operand.folded
  | field base name => field base.folded name
  | element base index => element base.folded index.folded
  | binary op left right => binary op left.folded right.folded
  | assign target value => assign target.folded value.folded
  | e => e

/-- A minus in front of a number becomes a part of it. -/
theorem folded_negate (operand : Expr) :
    (unary .negate operand).folded = Grammar.negation operand.folded := by
  rw [folded]
  cases operand.folded <;> rfl

/-- An expression in which no negation has an operand that folds to a number literal is its own
folded form. -/
theorem folded_eq_self {e : Expr}
    (noLiteral : ∀ operand x, unary .negate operand ∈ e.walk → operand.folded ≠ number x) :
    e.folded = e := by
  have inParts {e child : Expr} (part : child ∈ e.children)
      (noLiteral : ∀ operand x, unary .negate operand ∈ e.walk → operand.folded ≠ number x) :
      ∀ operand x, unary .negate operand ∈ child.walk → operand.folded ≠ number x :=
    fun operand x member => noLiteral operand x (mem_walk_of_child part member)
  induction e with
  | number x | string text | bool holds | null | fact name => rfl
  | field base name inductionHypothesis =>
      rw [folded, inductionHypothesis (inParts (by simp [children]) noLiteral)]
  | element base index baseHypothesis indexHypothesis =>
      rw [folded, baseHypothesis (inParts (by simp [children]) noLiteral),
        indexHypothesis (inParts (by simp [children]) noLiteral)]
  | binary op left right leftHypothesis rightHypothesis =>
      rw [folded, leftHypothesis (inParts (by simp [children]) noLiteral),
        rightHypothesis (inParts (by simp [children]) noLiteral)]
  | unary op operand inductionHypothesis =>
      have unchanged := inductionHypothesis (inParts (by simp [children]) noLiteral)
      cases op with
      | not => rw [folded, unchanged]
      | negate =>
          have noNumber := fun x => noLiteral operand x (mem_walk_self _)
          rw [unchanged] at noNumber
          rw [folded_negate, unchanged]
          cases operand with
          | number x => exact absurd rfl (noNumber x)
          | _ => rfl
  | assign target value targetHypothesis valueHypothesis =>
      rw [folded, targetHypothesis (inParts (by simp [children]) noLiteral),
        valueHypothesis (inParts (by simp [children]) noLiteral)]

theorem root?_folded {e : Expr} {name : String} (path : e.root? = some name) :
    e.folded.root? = some name := by
  induction e with
  | fact other => exact path
  | field base other inductionHypothesis => exact inductionHypothesis path
  | element base index inductionHypothesis _ => exact inductionHypothesis path
  | _ => cases path

/-! ## Texts of expressions -/

/-- What a node of an expression needs in order to have a text that is read back: its name, if it
has one, is a name of the rule language, and its number one that is read back. -/
def NodeIsWritable : Expr → Prop
  | number x => Number.ReadsBack x
  | fact name => IsName name
  | field _ name => IsName name
  | _ => True

/-- Whether all nodes of an expression have texts that are read back. -/
def IsWritable (e : Expr) : Prop :=
  ∀ node ∈ e.walk, node.NodeIsWritable

theorem IsWritable.child {e child : Expr} (writable : e.IsWritable) (part : child ∈ e.children) :
    child.IsWritable :=
  fun node member => writable node (mem_walk_of_child part member)

/-! ## Texts of numbers -/

/-- The number that a numeral stands for behind an optional minus. -/
def signedFloat (minus : Bool) (numeral : Numeral) : Float :=
  if minus then -numeral.toFloat else numeral.toFloat

theorem signed_numeral_writes (minus : Bool) {numeral : Numeral} (written : numeral.WellFormed) :
    Writes (if minus then UnaryOp.precedence else primaryLevel)
      (Number.signed minus numeral.chars) (number (signedFloat minus numeral)) := by
  have isWritten : (Lexeme.number numeral).IsWritten := written
  have atom : Writes primaryLevel numeral.chars (number numeral.toFloat) :=
    Writes.atom rfl isWritten
  cases minus with
  | false => exact atom
  | true => exact (atom.loosen (show UnaryOp.precedence ≤ primaryLevel by decide)).minus

theorem parse_signed_numeral {text : String} {minus : Bool} {numeral : Numeral}
    (written : numeral.WellFormed) (chars : text.toList = Number.signed minus numeral.chars) :
    Expr.parse text = .ok (number (signedFloat minus numeral)) := by
  have writes := signed_numeral_writes minus written
  rw [← chars] at writes
  have weak : leastPrecedence ≤ if minus then UnaryOp.precedence else primaryLevel := by
    cases minus <;> decide
  exact parse_of_writes (writes.loosen weak)

/-- A literal writes its number, as an operand of operators before one operand only where it has no
minus. -/
theorem literal_writes {x : Float} (readsBack : Number.ReadsBack x) :
    Writes UnaryOp.precedence (Number.literal x).toList (number x) ∧
      (¬ x < 0 → Writes primaryLevel (Number.literal x).toList (number x)) := by
  obtain ⟨⟨negative, mantissa, exponent, finite⟩, parse⟩ := readsBack
  obtain ⟨minus, cs, ⟨numeral, written, rfl⟩, chars, below⟩ :=
    Number.exists_numeral_literal finite
  obtain rfl : signedFloat minus numeral = x := by
    rw [parse_signed_numeral written chars] at parse
    injection parse with same
    injection same
  have writes := signed_numeral_writes minus written
  rw [← chars] at writes
  have strong : UnaryOp.precedence ≤ if minus then UnaryOp.precedence else primaryLevel := by
    cases minus <;> decide
  refine ⟨writes.loosen strong, fun notBelow => ?_⟩
  have noMinus : minus = false := Bool.eq_false_iff.2 fun sign => notBelow (below sign)
  simpa only [noMinus, Bool.false_eq_true, if_false] using writes

/-! ## Texts of expressions -/

private theorem toList_parenthesized (needed : Bool) (text : String) :
    (parenthesized needed text).toList =
      if needed then '(' :: (text.toList ++ [')']) else text.toList := by
  cases needed <;> simp [parenthesized]

theorem print_zero (e : Expr) : e.print 0 = e.print leastPrecedence := by
  have positive (op : BinaryOp) : op.precedence ≠ 0 :=
    Nat.pos_iff_ne_zero.1 (Grammar.precedence_pos op)
  cases e <;> simp [print, positive, UnaryOp.precedence, leastPrecedence]

/-- Parentheses stand where the context is tighter than the level of what is between them. -/
theorem writes_parenthesized {needed : Bool} {text : String} {e : Expr} {level context : Nat}
    (writes : Writes level text.toList e) (least : leastPrecedence ≤ level)
    (bounded : context ≤ accessLevel) (fits : needed = false → context ≤ level) :
    Writes context (parenthesized needed text).toList e := by
  rw [toList_parenthesized]
  cases needed with
  | true => exact (writes.loosen least).parenthesized.loosen (Nat.le_succ_of_le bounded)
  | false => exact writes.loosen (fits rfl)

private theorem toList_print_field (context : Nat) (base : Expr) (name : String) :
    ((field base name).print context).toList =
      (base.print accessLevel).toList ++ '.' :: name.toList := by
  simp [print, String.toList_append, accessLevel]

private theorem toList_print_element (context : Nat) (base index : Expr) :
    ((element base index).print context).toList =
      (base.print accessLevel).toList ++ '[' :: ((index.print leastPrecedence).toList ++ [']']) := by
  simp [print, String.toList_append, accessLevel, print_zero]

/-! ## Parts of an expression -/

section Parts

variable {base index left right operand : Expr} {context : Nat}

theorem atom_writes_within (bounded : context ≤ accessLevel) (lexeme : Lexeme) {e : Expr}
    (single : Grammar.atom? lexeme = some e) (written : lexeme.IsWritten) :
    Writes context lexeme.chars e :=
  (Writes.atom single written).loosen (Nat.le_succ_of_le bounded)

/-- A literal with a sign stands between parentheses where an operator before one operand would. -/
theorem number_writes_within (bounded : context ≤ accessLevel) {x : Float}
    (writable : (number x).NodeIsWritable) :
    Writes context ((number x).print context).toList (number x) := by
  obtain ⟨writesSigned, writesUnsigned⟩ := literal_writes writable
  rw [print]
  by_cases below : x < 0
  · refine writes_parenthesized writesSigned (by decide) bounded ?_
    simp only [below, decide_true, Bool.true_and, decide_eq_false_iff_not]
    omega
  · refine writes_parenthesized (writesUnsigned below) (by decide) bounded ?_
    exact fun _ => Nat.le_succ_of_le bounded

private theorem binary_writes_within (bounded : context ≤ accessLevel) {op : BinaryOp}
    (writesLeft : Writes op.precedence (left.print op.precedence).toList left.folded)
    (writesRight :
      Writes (op.precedence + 1) (right.print (op.precedence + 1)).toList right.folded) :
    Writes context ((binary op left right).print context).toList (binary op left right).folded := by
  rw [print, folded]
  refine writes_parenthesized ?_ (Grammar.precedence_pos op) bounded (by simp)
  simpa [String.toList_append] using writesLeft.binary writesRight

private theorem unary_writes_within (bounded : context ≤ accessLevel) (op : UnaryOp)
    (writes : Writes UnaryOp.precedence (operand.print UnaryOp.precedence).toList operand.folded) :
    Writes context ((unary op operand).print context).toList (unary op operand).folded := by
  rw [print]
  refine writes_parenthesized ?_ (show leastPrecedence ≤ UnaryOp.precedence by decide) bounded
    (by simp)
  rw [String.toList_append]
  cases op with
  | not =>
      rw [folded]
      exact writes.not
  | negate =>
      rw [folded_negate]
      exact writes.minus

end Parts

/-- The text of an expression in a context writes its folded form there. -/
theorem print_writes {e : Expr} (writable : e.IsWritable) (free : e.hasAssignment = false)
    {context : Nat} (least : leastPrecedence ≤ context) (bounded : context ≤ accessLevel) :
    Writes context (e.print context).toList e.folded := by
  have child {e : Expr} (writable : e.IsWritable) (free : e.hasAssignment = false) (part : Expr)
      (isPart : part ∈ e.children) : part.IsWritable ∧ part.hasAssignment = false :=
    ⟨writable.child isPart, hasAssignment_of_child free isPart⟩
  induction e generalizing context with
  | number x => exact number_writes_within bounded (writable _ (mem_walk_self _))
  | string text => exact atom_writes_within bounded (.string text) rfl trivial
  | bool holds =>
      cases holds with
      | true => exact atom_writes_within bounded (.keyword .trueWord) rfl trivial
      | false => exact atom_writes_within bounded (.keyword .falseWord) rfl trivial
  | null => exact atom_writes_within bounded (.keyword .nullWord) rfl trivial
  | fact name => exact atom_writes_within bounded (.name name) rfl (writable _ (mem_walk_self _))
  | field base name inductionHypothesis =>
      obtain ⟨writableBase, freeBase⟩ := child writable free base (by simp [children])
      have writes := inductionHypothesis writableBase freeBase (by decide) (Nat.le_refl _)
      rw [toList_print_field, folded]
      exact (writes.field (writable _ (mem_walk_self _))).loosen bounded
  | element base index baseHypothesis indexHypothesis =>
      obtain ⟨writableBase, freeBase⟩ := child writable free base (by simp [children])
      obtain ⟨writableIndex, freeIndex⟩ := child writable free index (by simp [children])
      have writesBase := baseHypothesis writableBase freeBase (by decide) (Nat.le_refl _)
      have writesIndex := indexHypothesis writableIndex freeIndex (Nat.le_refl _) (by decide)
      rw [toList_print_element, folded]
      exact (writesBase.element writesIndex).loosen bounded
  | binary op left right leftHypothesis rightHypothesis =>
      obtain ⟨writableLeft, freeLeft⟩ := child writable free left (by simp [children])
      obtain ⟨writableRight, freeRight⟩ := child writable free right (by simp [children])
      have weaker : op.precedence + 1 ≤ accessLevel :=
        Nat.le_succ_of_le (Grammar.precedence_lt_unary op)
      exact binary_writes_within bounded
        (leftHypothesis writableLeft freeLeft (Grammar.precedence_pos op)
          (Nat.le_of_succ_le weaker))
        (rightHypothesis writableRight freeRight (Nat.succ_pos _) weaker)
  | unary op operand inductionHypothesis =>
      obtain ⟨writableOperand, freeOperand⟩ := child writable free operand (by simp [children])
      exact unary_writes_within bounded op
        (inductionHypothesis writableOperand freeOperand (by decide) (by decide))
  | assign target value targetHypothesis valueHypothesis =>
      rw [hasAssignment_assign] at free
      cases free

theorem toText_writes {e : Expr} (writable : e.IsWritable) (free : e.hasAssignment = false) :
    Writes leastPrecedence e.toText.toList e.folded := by
  rw [toText, print_zero]
  exact print_writes writable free (Nat.le_refl _) (by decide)

end Expr

end Rulebook
