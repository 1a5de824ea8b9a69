import Rulebook.Expr.Printer
import Rulebook.Proofs.Grammar.Completeness
import Rulebook.Proofs.Number.Literal

/-!
# Texts that write expressions

Texts that spell lexemes whatever follows them, as long as it does not go on with the last lexeme,
and texts that write an expression at a level of binding power.
-/

namespace Rulebook

open Scan (Reads)
open Grammar (Derives leastPrecedence accessLevel primaryLevel)

/-! ## Texts behind an expression -/

/-- Whether no name, keyword or number goes on with the first characters of a text. -/
def Separates (rest : List Char) : Prop :=
  (∀ c ∈ rest.head?, continuesName c = false ∧ Text.isDigit c = false) ∧
    (rest.head? = some '.' → ∀ d ∈ rest.tail.head?, Text.isDigit d = false)

private theorem separates_nil : Separates [] :=
  ⟨by simp, by simp⟩

theorem separates_sign {c : Char} (cs : List Char) (sign : c ∈ Text.signs) (noDot : c ≠ '.') :
    Separates (c :: cs) := by
  have outside := Text.sign_in_no_class sign
  refine ⟨?_, ?_⟩
  · rintro d ⟨⟩
    exact ⟨outside.2.2.2, outside.2.1⟩
  · rintro ⟨⟩
    exact absurd rfl noDot

theorem separates_blank {c : Char} (cs : List Char) (blank : c = ' ' ∨ c = '\n') :
    Separates (c :: cs) := by
  have isBlank : Text.isBlank c = true := by
    rcases blank with rfl | rfl <;> rfl
  have outside : continuesName c = false ∧ Text.isDigit c = false :=
    ⟨Text.continuesName_eq_false_of_isBlank isBlank, Text.isDigit_eq_false_of_isBlank isBlank⟩
  refine ⟨?_, ?_⟩
  · rintro d ⟨⟩
    exact outside
  · rintro ⟨⟩
    rcases blank with dot | dot <;> exact absurd dot (by decide)

private theorem separates_dot {cs : List Char} (noDigit : ∀ d ∈ cs.head?, Text.isDigit d = false) :
    Separates ('.' :: cs) := by
  have outside := Text.sign_in_no_class (c := '.') (by decide)
  refine ⟨?_, fun _ => noDigit⟩
  rintro d ⟨⟩
  exact ⟨outside.2.2.2, outside.2.1⟩

/-! ## Texts and lexemes -/

/-- Whether a text spells lexemes, in front of any text that separates. -/
def Spells (cs : List Char) (lexemes : List Lexeme) : Prop :=
  ∀ rest others, Separates rest → Reads rest others → Reads (cs ++ rest) (lexemes ++ others)

theorem Spells.reads {cs : List Char} {lexemes : List Lexeme} (spelled : Spells cs lexemes) :
    Reads cs lexemes := by
  simpa using spelled [] [] separates_nil Scan.reads_nil

/-- Names, keywords and literals: every lexeme that is no symbol ends where a text separates. -/
theorem spells_lexeme {lexeme : Lexeme} (written : lexeme.IsWritten)
    (noSymbol : ∀ sign, lexeme ≠ .symbol sign) : Spells lexeme.chars [lexeme] := by
  intro rest others separates read
  refine Scan.reads_chars written ?_ read
  cases lexeme with
  | name text | keyword word => exact fun c member => (separates.1 c member).1
  | number numeral => exact ⟨fun c member => (separates.1 c member).2, fun _ => separates.2⟩
  | symbol sign => exact absurd rfl (noSymbol sign)
  | string quotable | malformed fault => trivial

theorem reads_symbol (sign : Symbol) {rest : List Char} {others : List Lexeme}
    (ends : (Lexeme.symbol sign).EndsBefore rest) (read : Reads rest others) :
    Reads (sign.text.toList ++ rest) (.symbol sign :: others) := by
  have written : (Lexeme.symbol sign).IsWritten := trivial
  exact Scan.reads_chars written ends read

private theorem exists_symbol (op : BinaryOp) : ∃ symbol : Symbol, symbol.binary? = some op := by
  rcases op with (_ | _ | _ | _) | (_ | _ | _ | _) | _ | _ | _ | _
  · exact ⟨.plus, rfl⟩
  · exact ⟨.minus, rfl⟩
  · exact ⟨.times, rfl⟩
  · exact ⟨.divide, rfl⟩
  · exact ⟨.less, rfl⟩
  · exact ⟨.lessEqual, rfl⟩
  · exact ⟨.greater, rfl⟩
  · exact ⟨.greaterEqual, rfl⟩
  · exact ⟨.equal, rfl⟩
  · exact ⟨.notEqual, rfl⟩
  · exact ⟨.and, rfl⟩
  · exact ⟨.or, rfl⟩

/-! ## Texts and expressions -/

/-- Whether a text begins with a character that is no equals sign, which would go on with some of
the symbols. -/
def StartsPlainly (cs : List Char) : Prop :=
  ∃ c ∈ cs.head?, c ≠ '='

theorem StartsPlainly.append {cs : List Char} (plain : StartsPlainly cs) (rest : List Char) :
    StartsPlainly (cs ++ rest) := by
  obtain ⟨c, first, noEquals⟩ := plain
  refine ⟨c, ?_, noEquals⟩
  rw [Option.mem_def] at first ⊢
  rw [List.head?_append, first, Option.some_or]

theorem startsPlainly_cons {c : Char} (cs : List Char) (noEquals : c ≠ '=') :
    StartsPlainly (c :: cs) :=
  ⟨c, rfl, noEquals⟩

private theorem startsPlainly_chars {lexeme : Lexeme} (written : lexeme.IsWritten)
    (noSymbol : ∀ sign, lexeme ≠ .symbol sign) : StartsPlainly lexeme.chars := by
  cases lexeme with
  | name text =>
      obtain ⟨c, cs, chars, start, _⟩ := written
      refine ⟨c, by rw [Lexeme.chars, chars]; rfl, ?_⟩
      rintro rfl
      exact Text.not_mem_signs_of_startsName start (by decide)
  | keyword word => cases word <;> exact startsPlainly_cons _ (by decide)
  | number numeral =>
      obtain ⟨whole, fraction⟩ := numeral
      cases whole with
      | nil => exact absurd rfl written.whole_ne_nil
      | cons c cs =>
          have plain : c ≠ '=' := by
            rintro rfl
            exact Text.not_mem_signs_of_isDigit (written.whole_digits _ List.mem_cons_self)
              (by decide)
          cases fraction <;> exact startsPlainly_cons _ plain
  | string quotable =>
      rw [Lexeme.chars, Text.Quotable.written, String.toList_ofList]
      exact startsPlainly_cons _ (by decide)
  | symbol sign => exact absurd rfl (noSymbol sign)
  | malformed fault => exact written.elim

/-- Whether a text writes an expression at a level of binding power, and can stand behind any
symbol. -/
def Writes (level : Nat) (cs : List Char) (e : Expr) : Prop :=
  StartsPlainly cs ∧ ∃ lexemes, Derives level lexemes e ∧ Spells cs lexemes

namespace Writes

variable {level : Nat} {cs : List Char} {e : Expr}

/-- What is written for one level is written for each lower one. -/
theorem loosen {lower : Nat} (writes : Writes level cs e) (weaker : lower ≤ level) :
    Writes lower cs e := by
  obtain ⟨noEquals, lexemes, derivation, spelled⟩ := writes
  exact ⟨noEquals, lexemes, derivation.loosen weaker, spelled⟩

theorem atom {lexeme : Lexeme} (atom : Grammar.atom? lexeme = some e)
    (written : lexeme.IsWritten) : Writes primaryLevel lexeme.chars e := by
  have noSymbol : ∀ sign, lexeme ≠ .symbol sign := by
    rintro sign rfl
    cases sign <;> cases atom
  exact ⟨startsPlainly_chars written noSymbol, [lexeme], .atom atom,
    spells_lexeme written noSymbol⟩

/-- In parentheses an expression of any level may stand anywhere. -/
theorem parenthesized (writes : Writes leastPrecedence cs e) :
    Writes primaryLevel ('(' :: (cs ++ [')'])) e := by
  obtain ⟨_, lexemes, derivation, spelled⟩ := writes
  refine ⟨startsPlainly_cons _ (by decide), _, .parenthesized derivation, ?_⟩
  intro rest others _ read
  have closed : Reads (')' :: rest) (.symbol .closeParenthesis :: others) :=
    reads_symbol .closeParenthesis trivial read
  have inside := spelled _ _ (separates_sign rest (by decide) (by decide)) closed
  simp only [List.append_assoc, List.cons_append, List.nil_append]
  exact reads_symbol .openParenthesis trivial inside

theorem field {name : String} (writes : Writes accessLevel cs e) (isName : IsName name) :
    Writes accessLevel (cs ++ '.' :: name.toList) (.field e name) := by
  obtain ⟨plain, lexemes, derivation, spelled⟩ := writes
  have writtenName : (Lexeme.name name).IsWritten := isName
  have spelledName : Spells name.toList [.name name] := spells_lexeme writtenName (by simp)
  obtain ⟨c, ds, chars, start, _⟩ := isName
  refine ⟨plain.append _, _, .field derivation, ?_⟩
  intro rest others separates read
  have dotted : Reads ('.' :: (name.toList ++ rest)) (.symbol .dot :: .name name :: others) :=
    reads_symbol .dot trivial (spelledName rest others separates read)
  have separated : Separates ('.' :: (name.toList ++ rest)) := by
    refine separates_dot ?_
    rw [chars]
    rintro d ⟨⟩
    exact Text.isDigit_eq_false_of_startsName start
  rw [List.append_assoc, List.append_assoc]
  exact spelled _ _ separated dotted

theorem element {inside : List Char} {index : Expr} (writes : Writes accessLevel cs e)
    (writesIndex : Writes leastPrecedence inside index) :
    Writes accessLevel (cs ++ '[' :: (inside ++ [']'])) (.element e index) := by
  obtain ⟨plain, lexemes, derivation, spelled⟩ := writes
  obtain ⟨_, insideLexemes, insideDerivation, insideSpelled⟩ := writesIndex
  refine ⟨plain.append _, _, .element derivation insideDerivation, ?_⟩
  intro rest others _ read
  have closed : Reads (']' :: rest) (.symbol .closeBracket :: others) :=
    reads_symbol .closeBracket trivial read
  have opened := reads_symbol .openBracket trivial
    (insideSpelled _ _ (separates_sign rest (by decide) (by decide)) closed)
  have separated : Separates ('[' :: (inside ++ ']' :: rest)) :=
    separates_sign _ (by decide) (by decide)
  simp only [List.append_assoc, List.cons_append, List.nil_append]
  exact spelled _ _ separated opened

theorem not (writes : Writes UnaryOp.precedence cs e) :
    Writes UnaryOp.precedence ('!' :: cs) (.unary .not e) := by
  obtain ⟨plain, lexemes, derivation, spelled⟩ := writes
  refine ⟨startsPlainly_cons _ (by decide), _, .not derivation, ?_⟩
  intro rest others separates read
  have ends : (Lexeme.symbol .not).EndsBefore (cs ++ rest) := by
    obtain ⟨c, first, noEquals⟩ := plain.append rest
    rintro equals
    exact noEquals (Option.mem_unique first equals)
  exact reads_symbol .not ends (spelled rest others separates read)

theorem minus (writes : Writes UnaryOp.precedence cs e) :
    Writes UnaryOp.precedence ('-' :: cs) (Grammar.negation e) := by
  obtain ⟨_, lexemes, derivation, spelled⟩ := writes
  refine ⟨startsPlainly_cons _ (by decide), _, .minus derivation, ?_⟩
  intro rest others separates read
  exact reads_symbol .minus trivial (spelled rest others separates read)

theorem binary {op : BinaryOp} {behind : List Char} {right : Expr}
    (writes : Writes op.precedence cs e) (writesRight : Writes (op.precedence + 1) behind right) :
    Writes op.precedence (cs ++ ' ' :: (op.sign.toList ++ ' ' :: behind)) (.binary op e right) := by
  obtain ⟨plain, lexemes, derivation, spelled⟩ := writes
  obtain ⟨_, behindLexemes, behindDerivation, behindSpelled⟩ := writesRight
  obtain ⟨symbol, operator⟩ := exists_symbol op
  refine ⟨plain.append _, _, .binary operator derivation behindDerivation, ?_⟩
  intro rest others separates read
  have blankBehind := Scan.reads_blank isBlank_space (behindSpelled rest others separates read)
  have signed := reads_symbol symbol (endsBefore_space (.symbol symbol) _) blankBehind
  have blankBefore := Scan.reads_blank isBlank_space signed
  rw [Symbol.text_eq_sign operator] at blankBefore
  simp only [List.append_assoc, List.cons_append]
  exact spelled _ _ (separates_blank _ (.inl rfl)) blankBefore

end Writes

/-- The text of an expression is read as that expression. -/
theorem parse_of_writes {text : String} {e : Expr} (writes : Writes leastPrecedence text.toList e) :
    Expr.parse text = .ok e := by
  obtain ⟨_, lexemes, derivation, spelled⟩ := writes
  obtain ⟨scan, scanned, found⟩ := spelled.reads Text.Position.start
  rw [Expr.parse, Scan.strict, scanned]
  exact Grammar.wholeExpression_of_derives scan.finish derivation found

end Rulebook
