import Rulebook.Proofs.Rule.Parsed
import Rulebook.Proofs.Token.Longest

/-!
# Strings of the rule language

Strings of the rule language, from their quotes to the rules in which they stand. What is written
between quotes is read as the text that was written, whatever follows, and nothing else is: no text
that ends in a backslash is read, so every string and every description that reaches a rule is one
that can be written.
-/

namespace Rulebook

open Text (Position Quotable readQuoted?)

/-! ## Between quotes -/

/-- What is read behind an opening quote is the text whose escaped form stands there, up to the
closing quote; all texts but those that end in a backslash can be read. -/
theorem readQuoted?_eq_some_iff {cs text : List Char} {length : Nat} :
    readQuoted? cs = some (text, length) ↔
      text.getLast? ≠ some '\\' ∧
        ∃ rest, cs = Quotable.escape text ++ '"' :: rest ∧
          length = (Quotable.escape text).length + 1 := by
  constructor
  · intro closed
    have taken := take_of_readQuoted? closed
    refine ⟨Text.getLast?_readQuoted? closed, cs.drop length, ?_, ?_⟩
    · rw [← List.singleton_append, ← List.append_assoc, ← taken, List.take_append_drop]
    · have sameLength := congrArg List.length taken
      rwa [List.length_take_of_le (readQuoted?_le closed), List.length_append,
        List.length_singleton] at sameLength
  · rintro ⟨closes, rest, rfl, rfl⟩
    exact readQuoted?_escape rest closes

namespace Scan

/-- A written lexeme at the start of a text is the first token of a lenient scan, which goes on behind
it. -/
theorem lenientFrom_chars {lexeme : Lexeme} {rest : List Char} (place : Position)
    (written : lexeme.IsWritten) (ends : lexeme.EndsBefore rest) :
    lenientFrom place (lexeme.chars ++ rest) =
      (lenientFrom (place.afterAll lexeme.chars) rest).prepend [⟨lexeme, place⟩] := by
  cases chars : lexeme.chars with
  | nil => exact absurd chars (chars_ne_nil written)
  | cons c cs =>
      rw [List.cons_append, lenientFrom_ok (atStart_chars written ends chars), List.take_left,
        List.drop_left]
      rfl

/-- Whether a token is found in a text, by a strict scan or by a lenient one. -/
def Finds (text : String) (token : Token) : Prop :=
  (∃ scan, strict text = .ok scan ∧ token ∈ scan.tokens) ∨ token ∈ (lenient text).tokens

theorem Finds.mem_lenient {text : String} {token : Token} (found : Finds text token) :
    token ∈ (lenient text).tokens := by
  rcases found with ⟨scan, scanned, member⟩ | member
  · obtain ⟨same, _⟩ := strictFrom_eq_ok_iff.1 scanned
    rw [lenient, same]
    exact member
  · exact member

/-- A lenient scan finds each token where its own characters stand. -/
theorem chars_isPrefix_of_mem {place : Position} {before cs : List Char} {token : Token}
    (offset : place.offset = before.length) (member : token ∈ (lenientFrom place cs).tokens) :
    token.lexeme.chars <+: (before ++ cs).drop token.place.offset := by
  fun_induction lenientFrom place cs generalizing before with
  | case1 place => cases member
  | case2 place c cs cause failed inductionHypothesis =>
      rcases List.mem_cons.1 member with rfl | later
      · exact List.nil_prefix
      · have behind : (place.after c).offset = (before ++ [c]).length := by
          rw [Position.offset_after, offset, List.length_append, List.length_singleton]
        have stands := inductionHypothesis behind later
        rwa [List.append_assoc] at stands
  | case3 place c cs piece length found inductionHypothesis =>
      have whole : c :: cs = (c :: cs.take length) ++ cs.drop length := by
        rw [List.cons_append, List.take_append_drop]
      rcases List.mem_append.1 member with isFirst | later
      · cases piece with
        | gap => cases isFirst
        | lexeme lexeme =>
            obtain rfl := List.mem_singleton.1 isFirst
            rw [offset, List.drop_left, (pieceAt_of_atStart found).written.2]
            exact ⟨cs.drop length, whole.symm⟩
      · have behind : (place.afterAll (c :: cs.take length)).offset =
            (before ++ (c :: cs.take length)).length := by
          rw [Position.offset_afterAll, offset, List.length_append]
        rw [whole, ← List.append_assoc]
        exact inductionHypothesis behind later

end Scan

/-! ## Strings of rules -/

theorem Expr.exists_child_of_string_mem {e : Expr} {text : Quotable}
    (different : e ≠ .string text) (member : .string text ∈ e.walk) :
    ∃ child ∈ e.children, .string text ∈ child.walk := by
  rw [walk_eq] at member
  rcases List.mem_cons.1 member with same | later
  · exact absurd same.symm different
  · exact List.mem_flatMap.1 later

/-- Whether a string is the description of a rule, or stands in its condition or an action. -/
def Rule.HasString (rule : Rule) (text : Quotable) : Prop :=
  rule.description = some text ∨
    ∃ e ∈ rule.condition :: rule.actions, .string text ∈ e.walk

namespace Grammar

variable {written : List Lexeme} {e action : Expr} {rule : Rule} {text : Quotable}

private theorem string_mem_of_atom? {lexeme : Lexeme} (found : atom? lexeme = some e)
    (member : .string text ∈ e.walk) : lexeme = .string text := by
  by_cases same : e = .string text
  · cases lexeme with
    | keyword word => cases word <;> simp_all [atom?]
    | _ => simp_all [atom?]
  · obtain ⟨child, isChild, _⟩ := Expr.exists_child_of_string_mem same member
    have noChildren : e.children = [] := by
      cases lexeme with
      | keyword word =>
          cases word <;> simp only [atom?, Option.some.injEq, reduceCtorEq] at found <;>
            exact found ▸ rfl
      | symbol sign | malformed fault => cases found
      | _ =>
          cases found
          rfl
    rw [noChildren] at isChild
    cases isChild

theorem string_mem_unary {op : UnaryOp} (member : .string text ∈ (Expr.unary op e).walk) :
    .string text ∈ e.walk := by
  obtain ⟨child, isChild, inChild⟩ := Expr.exists_child_of_string_mem (by simp) member
  rwa [List.mem_singleton.1 isChild] at inChild

private theorem string_mem_negation (member : .string text ∈ (negation e).walk) :
    .string text ∈ e.walk := by
  cases e with
  | number x =>
      obtain ⟨child, isChild, _⟩ := Expr.exists_child_of_string_mem (by simp [negation]) member
      cases isChild
  | _ => exact string_mem_unary member

/-- The strings of an expression are among the lexemes that write it. -/
theorem Derives.string_mem {level : Nat} (derivation : Derives level written e)
    (member : .string text ∈ e.walk) : .string text ∈ written := by
  induction derivation with
  | tighter _ inductionHypothesis => exact inductionHypothesis member
  | binary _ _ _ leftHypothesis rightHypothesis =>
      obtain ⟨child, isChild, inChild⟩ := Expr.exists_child_of_string_mem (by simp) member
      rcases List.mem_pair.1 isChild with rfl | rfl
      · exact List.mem_append_left _ (leftHypothesis inChild)
      · exact List.mem_append_right _ (List.mem_cons_of_mem _ (rightHypothesis inChild))
  | not _ inductionHypothesis =>
      exact List.mem_cons_of_mem _ (inductionHypothesis (string_mem_unary member))
  | minus _ inductionHypothesis =>
      exact List.mem_cons_of_mem _ (inductionHypothesis (string_mem_negation member))
  | field _ inductionHypothesis =>
      obtain ⟨child, isChild, inChild⟩ := Expr.exists_child_of_string_mem (by simp) member
      rw [List.mem_singleton.1 isChild] at inChild
      exact List.mem_append_left _ (inductionHypothesis inChild)
  | element _ _ baseHypothesis indexHypothesis =>
      obtain ⟨child, isChild, inChild⟩ := Expr.exists_child_of_string_mem (by simp) member
      rcases List.mem_pair.1 isChild with rfl | rfl
      · exact List.mem_append_left _ (baseHypothesis inChild)
      · have inIndex := List.mem_append_left [.symbol .closeBracket] (indexHypothesis inChild)
        exact List.mem_append_right _ (List.mem_cons_of_mem _ inIndex)
  | atom found => exact List.mem_singleton.2 (string_mem_of_atom? found member).symm
  | parenthesized _ inductionHypothesis =>
      exact List.mem_cons_of_mem _ (List.mem_append_left _ (inductionHypothesis member))

/-- A string in an action is one of its tokens. -/
theorem DerivesAction.string_mem (derivation : DerivesAction written action)
    (member : .string text ∈ action.walk) : .string text ∈ written := by
  cases derivation with
  | evaluated derivation => exact List.mem_append_left _ (derivation.string_mem member)
  | assigned derivesTarget _ derivesValue =>
      obtain ⟨child, isChild, inChild⟩ := Expr.exists_child_of_string_mem (by simp) member
      rcases List.mem_pair.1 isChild with rfl | rfl
      · exact List.mem_append_left _ (derivesTarget.string_mem inChild)
      · have inValue := List.mem_append_left [.symbol .semicolon] (derivesValue.string_mem inChild)
        exact List.mem_append_right _ (List.mem_cons_of_mem _ inValue)

theorem DerivesActions.string_mem {actions : List Expr}
    (derivation : DerivesActions written actions) (isAction : action ∈ actions)
    (member : .string text ∈ action.walk) : .string text ∈ written := by
  induction derivation with
  | nil => cases isAction
  | cons derivesFirst _ inductionHypothesis =>
      rcases List.mem_cons.1 isAction with rfl | later
      · exact List.mem_append_left _ (derivesFirst.string_mem member)
      · exact List.mem_append_right _ (inductionHypothesis later)

/-- The description of a rule and the strings in it are among the lexemes that write the rule. -/
theorem DerivesRule.string_mem (derivation : DerivesRule written rule)
    (hasString : rule.HasString text) : .string text ∈ written := by
  obtain ⟨_, derivesCondition, derivesActions, _⟩ := derivation
  simp only [List.mem_cons, List.mem_append]
  rcases hasString with described | ⟨e, isPart, member⟩
  · simp [described, descriptionLexemes]
  · rcases List.mem_cons.1 isPart with rfl | isAction
    · simp [derivesCondition.string_mem member]
    · simp [derivesActions.string_mem isAction member]

end Grammar

/-! ## Strings and tokens -/

/-- Whether a string is the value of a string token of a text, and passes the check for strings that can
be written. -/
def Scan.FindsString (source : String) (text : Quotable) : Prop :=
  ∃ token, Finds source token ∧ token.lexeme = .string text ∧
    Quotable.of? token.lexeme.text = some text

theorem Scan.findsString_of_mem {source : String} {text : Quotable}
    (member : .string text ∈ (lenient source).tokens.map Token.lexeme) :
    FindsString source text := by
  obtain ⟨token, isToken, same⟩ := List.mem_map.1 member
  refine ⟨token, .inr isToken, same, ?_⟩
  rw [same]
  exact text.of?_text

/-- A string in an expression stands in the text from which the expression was read. -/
theorem Expr.findsString_of_parse {source : String} {e : Expr} {text : Quotable}
    (parsed : Expr.parse source = .ok e) (member : .string text ∈ e.walk) :
    Scan.FindsString source text := by
  unfold Expr.parse at parsed
  split at parsed
  · cases parsed
  · next scan scanned =>
      have derivation := Grammar.derives_of_wholeExpression parsed
      obtain ⟨same, _⟩ := Scan.strictFrom_eq_ok_iff.1 scanned
      apply Scan.findsString_of_mem
      rw [Scan.lenient, same]
      exact derivation.string_mem member

/-- A string in a rule stands in the text from which the rule was read. -/
theorem Rule.findsString_of_parse {source : String} {rule : Rule} {text : Quotable}
    (parsed : Rule.parse source = .ok rule ∨ rule ∈ (Document.parse source).rules)
    (hasString : rule.HasString text) : Scan.FindsString source text := by
  apply Scan.findsString_of_mem
  rcases parsed with isRead | member
  · exact (Document.parse_rule_eq_ok_iff.1 isRead).string_mem hasString
  · obtain ⟨written, derivation, inDocument⟩ := Document.exists_derives_of_mem_parse member
    exact inDocument _ (derivation.string_mem hasString)

/-- Strings are read as they are written. Between quotes any text that does not end in a backslash can
be read, up to the first quote that is not escaped. A scan finds a written string as its first token,
whatever follows, and goes on behind the closing quote. Every string that a scan finds is written
where it is found and passes the check for strings that can be written, and so do the strings of
every expression and every rule that is read, descriptions included, since they are strings that
the scan of its text found. -/
theorem Scan.finds_written_strings :
    (∀ (cs text : List Char) (length : Nat), readQuoted? cs = some (text, length) ↔
      text.getLast? ≠ some '\\' ∧
        ∃ rest, cs = Quotable.escape text ++ '"' :: rest ∧
          length = (Quotable.escape text).length + 1) ∧
    (∀ (text : String) (closes : text.toList.getLast? ≠ some '\\') (rest : List Char)
        (place : Position),
      let written := (Quotable.mk text closes).written.toList
      let token : Token := ⟨.string ⟨text, closes⟩, place⟩
      strictFrom place (written ++ rest) =
          (strictFrom (place.afterAll written) rest).map (prepend [token]) ∧
        lenientFrom place (written ++ rest) =
          (lenientFrom (place.afterAll written) rest).prepend [token]) ∧
    (∀ (source : String) (token : Token), Finds source token →
      token.lexeme.className = "string" →
      ∃ text, Quotable.of? token.lexeme.text = some text ∧ token.lexeme = .string text ∧
        text.written.toList <+: source.toList.drop token.place.offset) ∧
    (∀ (source : String) (e : Expr), Expr.parse source = .ok e →
      ∀ text, .string text ∈ e.walk → FindsString source text) ∧
    ∀ (source : String) (rule : Rule),
      Rule.parse source = .ok rule ∨ rule ∈ (Document.parse source).rules →
      ∀ text, rule.HasString text → FindsString source text := by
  refine ⟨fun _ _ _ => readQuoted?_eq_some_iff, ?_, ?_, ?_, ?_⟩
  · intro text closes rest place
    have written : (Lexeme.string ⟨text, closes⟩).IsWritten := trivial
    have ends : (Lexeme.string ⟨text, closes⟩).EndsBefore rest := trivial
    have strict := strictFrom_chars place written ends
    have lenient := lenientFrom_chars place written ends
    dsimp only [Lexeme.chars] at strict lenient
    exact ⟨strict, lenient⟩
  · intro source token found isString
    obtain ⟨lexeme, place⟩ := token
    have stands := @chars_isPrefix_of_mem _ [] _ _ rfl found.mem_lenient
    cases lexeme with
    | string text => exact ⟨text, text.of?_text, rfl, stands⟩
    | _ => simp [Lexeme.className] at isString
  · exact fun source e parsed text => Expr.findsString_of_parse parsed
  · exact fun source rule parsed text => Rule.findsString_of_parse parsed

/-- A rule whose description is a backslash and a quote. -/
private def describedText : String :=
  "rule r \"\\\\\"\" \x7b when a then b; \x7d"

private def backslashQuote : Quotable :=
  ⟨"\\\"", by decide⟩

theorem Scan.finds_written_strings_describedText :
    readQuoted? ['\\', '\\', '"', '"', '"'] = some (['\\', '"'], 4) ∧
      lenientFrom .start (backslashQuote.written.toList ++ ['"']) =
        (lenientFrom ⟨5, 1, 6⟩ ['"']).prepend [⟨.string backslashQuote, .start⟩] ∧
      ∃ rule token, Rule.parse describedText = .ok rule ∧ rule.HasString backslashQuote ∧
        Finds describedText token ∧ token.lexeme = .string backslashQuote ∧
        backslashQuote.written.toList <+: describedText.toList.drop token.place.offset := by
  obtain ⟨reads, goesOn, stands, -, ofRule⟩ := Scan.finds_written_strings
  have described : (Rule.parse describedText).toOption.bind Rule.description =
      some backslashQuote := by
    decide +kernel
  refine ⟨(reads _ _ _).2 ⟨by decide, ['"'], rfl, rfl⟩,
    (goesOn backslashQuote.text backslashQuote.closes ['"'] .start).2, ?_⟩
  cases parsed : Rule.parse describedText with
  | error fault =>
      rw [parsed] at described
      cases described
  | ok rule =>
      rw [parsed] at described
      obtain ⟨token, found, same, _⟩ := ofRule _ rule (.inl parsed) _ (.inl described)
      obtain ⟨text, _, sameText, isWritten⟩ := stands _ token found (by rw [same]; rfl)
      cases same.symm.trans sameText
      exact ⟨rule, token, rfl, .inl described, found, same, isWritten⟩

end Rulebook
