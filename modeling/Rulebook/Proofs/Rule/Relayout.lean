import Rulebook.Proofs.Grammar.Documents
import Rulebook.Proofs.Token.Insertion

/-!
# Rules and their layout

Rules and their layout. Which rule a text is depends on the classes and texts of its tokens only, and
so a text stays the same rule when blanks and comments are put in front of a token.
-/

namespace Rulebook

open Grammar (DerivesRule lexemes)

/-! ## Tokens without their places -/

/-- The class and the text of a token. -/
def Token.content (token : Token) : String × String :=
  (token.lexeme.className, token.lexeme.text)

private theorem atStart?_text (sign : Symbol) : Symbol.atStart? sign.text.toList = some sign := by
  cases sign <;> rfl

/-- A written lexeme is determined by its class and its text. -/
theorem Lexeme.eq_of_text_eq {lexeme other : Lexeme} (written : lexeme.IsWritten)
    (otherWritten : other.IsWritten) (sameClass : lexeme.className = other.className)
    (sameText : lexeme.text = other.text) : lexeme = other := by
  cases lexeme with
  | name word =>
      cases other with
      | name _ => exact congrArg name sameText
      | _ => simp [className] at sameClass
  | keyword word =>
      cases other with
      | keyword otherWord =>
          have found := congrArg Keyword.ofText? sameText
          simp only [text, Keyword.ofText?_text, Option.some.injEq] at found
          rw [found]
      | _ => simp [className] at sameClass
  | number numeral =>
      cases other with
      | number otherNumeral =>
          have sameChars : numeral.chars = otherNumeral.chars := String.ofList_injective sameText
          have ends (numeral : Numeral) : EndsBefore [] (number numeral) :=
            ⟨fun _ none => (by cases none), fun _ isPoint => by cases isPoint⟩
          have read := numeral_chars written (ends numeral)
          rw [sameChars, numeral_chars otherWritten (ends otherNumeral)] at read
          rw [read]
      | _ => simp [className] at sameClass
  | string quotable =>
      cases other with
      | string otherQuotable =>
          have found := congrArg Text.Quotable.of? sameText
          simp only [text, Text.Quotable.of?_text, Option.some.injEq] at found
          rw [found]
      | _ => simp [className] at sameClass
  | symbol sign =>
      cases other with
      | symbol otherSign =>
          have found := congrArg (fun word => Symbol.atStart? word.toList) sameText
          simp only [text, atStart?_text, Option.some.injEq] at found
          rw [found]
      | _ => simp [className] at sameClass
  | malformed fault => exact written.elim

theorem lexemes_eq_of_content_eq {tokens others : List Token}
    (written : ∀ token ∈ tokens, token.lexeme.IsWritten)
    (otherWritten : ∀ token ∈ others, token.lexeme.IsWritten)
    (same : tokens.map Token.content = others.map Token.content) :
    lexemes tokens = lexemes others := by
  induction tokens generalizing others with
  | nil =>
      obtain rfl : others = [] := List.map_eq_nil_iff.1 same.symm
      rfl
  | cons token tokens inductionHypothesis =>
      obtain ⟨other, others, rfl, sameFirst, sameLater⟩ := List.map_eq_cons_iff.1 same.symm
      obtain ⟨sameClass, sameText⟩ := Prod.mk.inj sameFirst
      have sameLexeme := Lexeme.eq_of_text_eq (written token List.mem_cons_self)
        (otherWritten other List.mem_cons_self) sameClass.symm sameText.symm
      have sameLexemes := inductionHypothesis
        (fun token member => written token (List.mem_cons_of_mem _ member))
        (fun other member => otherWritten other (List.mem_cons_of_mem _ member)) sameLater.symm
      rw [lexemes, List.map_cons, sameLexeme]
      exact congrArg (other.lexeme :: ·) sameLexemes

/-! ## Rules of the same lexemes -/

namespace Rule

variable {text : String} {rule : Rule}

theorem parse_iff_lexemesOf :
    Rule.parse text = .ok rule ↔ DerivesRule (Scan.lexemesOf text.toList) rule :=
  Document.parse_rule_eq_ok_iff

/-- Texts of the same lexemes are read as the same rule. -/
theorem parse_congr {other : String} (same : Scan.lexemesOf text.toList = Scan.lexemesOf other.toList) :
    Rule.parse text = .ok rule ↔ Rule.parse other = .ok rule := by
  rw [parse_iff_lexemesOf, parse_iff_lexemesOf, same]

end Rule

/-- All tokens of a text that is scanned strictly are written ones. -/
theorem Scan.isWritten_of_strict {text : String} {scan : Scan} (scanned : strict text = .ok scan) :
    ∀ token ∈ scan.tokens, token.lexeme.IsWritten := by
  have layout : Layout (Text.Position.start.afterAll []) text.toList scan :=
    .of_strictFrom scanned
  exact fun token member => (layout.standsIn token member).written

/-- Texts with the same classes and texts of tokens are the same rule. -/
theorem Rule.parse_of_content_eq {text other : String} {scan otherScan : Scan} {rule : Rule}
    (parsed : Rule.parse text = .ok rule) (scanned : Scan.strict text = .ok scan)
    (otherScanned : Scan.strict other = .ok otherScan)
    (same : otherScan.tokens.map Token.content = scan.tokens.map Token.content) :
    Rule.parse other = .ok rule := by
  have sameLexemes := lexemes_eq_of_content_eq (Scan.isWritten_of_strict scanned)
    (Scan.isWritten_of_strict otherScanned) same.symm
  obtain ⟨rfl, -⟩ := Scan.strictFrom_eq_ok_iff.1 scanned
  obtain ⟨rfl, -⟩ := Scan.strictFrom_eq_ok_iff.1 otherScanned
  exact (parse_congr sameLexemes).1 parsed

/-- Nothing can be added to the lexemes of a rule. -/
theorem Grammar.DerivesRule.eq_nil_of_append {written more : List Lexeme} {rule other : Rule}
    (derivation : DerivesRule written rule) (longer : DerivesRule (written ++ more) other) :
    more = [] := by
  have unplacedLexemes (written : List Lexeme) : lexemes (Document.unplaced written) = written := by
    simp [lexemes, Document.unplaced, Function.comp_def]
  have enclosed : IsEnclosed (lexemes (Document.unplaced written)) := by
    rw [unplacedLexemes]
    exact derivation.isEnclosed
  have enclosedLonger : IsEnclosed (lexemes (Document.unplaced (written ++ more))) := by
    rw [unplacedLexemes]
    exact longer.isEnclosed
  have split := @Document.blocks_enclosed _ (Document.unplaced more) enclosed
  have whole := @Document.blocks_enclosed _ [] enclosedLonger
  rw [List.append_nil, Document.unplaced, List.map_append] at whole
  obtain ⟨sameBlock, -⟩ := List.cons.inj (split.symm.trans whole)
  have sameLength := congrArg List.length sameBlock
  rw [Document.unplaced, List.length_append, List.length_map, List.length_map] at sameLength
  exact List.eq_nil_of_length_eq_zero (by omega)

/-! ## Layout -/

theorem Scan.le_length_of_mem_offsets {text : String} {scan : Scan} {offset : Nat}
    (scanned : strict text = .ok scan) (member : offset ∈ scan.offsets) :
    offset ≤ text.toList.length := by
  obtain ⟨rfl, -⟩ := strictFrom_eq_ok_iff.1 scanned
  have finish : (lenientFrom .start text.toList).finish.offset = text.toList.length := by
    rw [finish_lenientFrom, offset_afterAll_start]
  have inOrder := pairwise_offsets .start text.toList
  rcases List.mem_append.1 member with isToken | isEnd
  · have before := (List.pairwise_append.1 inOrder).2.2 offset isToken _ List.mem_cons_self
    exact Nat.le_of_lt (finish ▸ before)
  · rw [List.mem_singleton.1 isEnd, finish]

/-- A text with characters put in at an offset. -/
def insertAt (text : String) (offset : Nat) (layout : List Char) : String :=
  String.ofList (text.toList.take offset ++ (layout ++ text.toList.drop offset))

namespace Rule

variable {text : String} {rule : Rule} {layout : List Char}

/-- A text is cut where one of its tokens begins, and at its end. -/
theorem exists_cutBefore_of_strict {scan : Scan} {offset : Nat}
    (scanned : Scan.strict text = .ok scan) (member : offset ∈ scan.offsets) :
    (∃ written, CutBefore (text.toList.drop offset) (text.toList.take offset) written) ∧
      ∀ c ∈ (text.toList.drop offset).head?, Text.isBlank c = false := by
  have inside := Scan.le_length_of_mem_offsets scanned member
  rw [Scan.strict, ← List.take_append_drop offset text.toList] at scanned
  refine Scan.exists_cutBefore scanned ?_
  rw [List.length_take_of_le inside]
  exact (Nat.zero_add offset).symm ▸ member

/-- Layout in front of a token makes no difference to a rule. -/
theorem parse_insertAt_of_lt {scan : Scan} {offset : Nat} (scanned : Scan.strict text = .ok scan)
    (member : offset ∈ scan.offsets) (inside : offset < text.toList.length)
    (isLayout : IsLayout layout) :
    Rule.parse (insertAt text offset layout) = .ok rule ↔ Rule.parse text = .ok rule := by
  obtain ⟨⟨written, cut⟩, notBlank⟩ := exists_cutBefore_of_strict scanned member
  have begins : (text.toList.drop offset).head? = some text.toList[offset] := by
    rw [List.head?_drop, List.getElem?_eq_getElem inside]
  apply parse_congr
  rw [insertAt, String.toList_ofList,
    Scan.lexemesOf_insert cut isLayout begins (notBlank _ begins), List.take_append_drop]

/-- Layout at the end of a rule makes no difference to the rule, but for what goes on behind a comment
that ends with its line. -/
theorem parse_insertAt_length {scan : Scan} (scanned : Scan.strict text = .ok scan)
    (member : text.toList.length ∈ scan.offsets) (parsed : Rule.parse text = .ok rule)
    (isLayout : IsLayout layout) :
    Rule.parse (insertAt text text.toList.length layout) = .ok rule ↔
      (EndsInLineComment text.toList → IsGap [] (layout.dropWhile (· != '\n'))) := by
  obtain ⟨⟨written, cut⟩, -⟩ := exists_cutBefore_of_strict scanned member
  rw [List.drop_length, List.take_length] at cut
  have derivation := parse_iff_lexemesOf.1 parsed
  have joined : (insertAt text text.toList.length layout).toList = text.toList ++ layout := by
    rw [insertAt, String.toList_ofList, List.take_length, List.drop_length, List.append_nil]
  rw [parse_iff_lexemesOf, joined]
  constructor
  · intro longer inComment
    rw [Scan.lexemesOf_append_of_endsInLineComment inComment] at longer
    exact Scan.isGap_of_lexemesOf (derivation.eq_nil_of_append longer)
  · intro isGap
    rcases Scan.lexemesOf_append_layout cut isLayout with same | inComment
    · rwa [same]
    · have noLexemes := Scan.lexemesOf_gap (isGap inComment)
      rw [List.append_nil, Scan.lexemesOf_nil] at noLexemes
      rwa [Scan.lexemesOf_append_of_endsInLineComment inComment, noLexemes, List.append_nil]

/-- Layout does not change what a rule is. A text stays the same rule when blanks, a comment between
marks with blanks on both sides, or blanks and a comment that ends with its line are put in front of
one of its tokens or at its end; only where the text ends within a comment that ends with its line,
what is put behind it has to be a gap from its first line feed on. All texts with the same classes and
texts of tokens are the same rule. -/
theorem parse_relayout (parsed : Rule.parse text = .ok rule) :
    ∃ scan, Scan.strict text = .ok scan ∧
      (∀ offset ∈ scan.offsets, ∀ layout, IsLayout layout →
        (Rule.parse (insertAt text offset layout) = .ok rule ↔
          (offset = text.toList.length → EndsInLineComment text.toList →
            IsGap [] (layout.dropWhile (· != '\n'))))) ∧
      ∀ other otherScan, Scan.strict other = .ok otherScan →
        otherScan.tokens.map Token.content = scan.tokens.map Token.content →
        Rule.parse other = .ok rule := by
  cases scanned : Scan.strict text with
  | error fault =>
      rw [Rule.parse, scanned] at parsed
      cases parsed
  | ok scan =>
      refine ⟨scan, rfl, fun offset member layout isLayout => ?_, ?_⟩
      · rcases Nat.lt_or_ge offset text.toList.length with inside | atEnd
        · rw [parse_insertAt_of_lt scanned member inside isLayout]
          exact iff_of_true parsed fun isEnd => absurd isEnd inside.ne
        · obtain rfl := Nat.le_antisymm (Scan.le_length_of_mem_offsets scanned member) atEnd
          rw [parse_insertAt_length scanned member parsed isLayout]
          exact ⟨fun fits _ => fits, fun fits => fits rfl⟩
      · exact fun other otherScan otherScanned same =>
          parse_of_content_eq parsed scanned otherScanned same

/-- A comment between marks that has a mark of another comment, a quotation mark and a line feed, behind
given blanks. -/
def markedLayout (blanks : List Char) : List Char :=
  blanks ++ '/' :: '*' :: (['/', '/', '"', '\n'] ++ '*' :: '/' :: ['\n'])

theorem isLayout_markedLayout {blanks : List Char} (nonempty : blanks ≠ [])
    (blank : blanks.all Text.isBlank = true) : IsLayout (markedLayout blanks) := by
  refine .comment nonempty (List.all_eq_true.1 blank) (by decide) (by decide) ?_
  exact List.all_eq_true.1 (by decide)

theorem parse_lookCommented : Rule.parse Document.lookCommented = .ok Document.look :=
  Document.parse_of_looking (by decide +kernel)

/-- The layout stands in front of a token of a rule and behind the comment at its end if a line feed
comes first. Without the comment the tokens are the same. -/
theorem parse_relayout_lookCommented :
    Rule.parse Document.lookCommented = .ok Document.look ∧
      Rule.parse (insertAt Document.lookCommented 17 (markedLayout [' '])) = .ok Document.look ∧
      Rule.parse (insertAt Document.lookCommented 44 (markedLayout ['\n'])) = .ok Document.look ∧
      Rule.parse Document.lookText = .ok Document.look := by
  have isLayout : IsLayout (markedLayout [' ']) :=
    isLayout_markedLayout (by decide) (by decide)
  have isLayoutLater : IsLayout (markedLayout ['\n']) :=
    isLayout_markedLayout (by decide) (by decide)
  have fits : IsGap [] ((markedLayout ['\n']).dropWhile (· != '\n')) := isLayoutLater.isGap []
  obtain ⟨scan, scanned, inserted, alike⟩ := parse_relayout parse_lookCommented
  obtain ⟨rfl, -⟩ := Scan.strictFrom_eq_ok_iff.1 scanned
  refine ⟨parse_lookCommented, ?_, ?_, ?_⟩
  · have notEnd : 17 ≠ Document.lookCommented.toList.length := by
      decide +kernel
    exact (inserted 17 (by decide +kernel) _ isLayout).2 fun isEnd => absurd isEnd notEnd
  · exact (inserted 44 (by decide +kernel) _ isLayoutLater).2 fun _ _ => fits
  · have otherScanned : Scan.strict Document.lookText = .ok (Scan.lenient Document.lookText) := by
      decide +kernel
    exact alike _ _ otherScanned (by decide +kernel)

/-- At the end of a text that ends within a comment, the first line feed of a layout may divide a
comment between marks. -/
theorem not_all_layouts_fit :
    ¬ ∀ (text : String) (rule : Rule) (scan : Scan), Rule.parse text = .ok rule →
      Scan.strict text = .ok scan → ∀ offset ∈ scan.offsets, ∀ layout, IsLayout layout →
        Rule.parse (insertAt text offset layout) = .ok rule := by
  intro always
  have isLayout : IsLayout (markedLayout [' ']) :=
    isLayout_markedLayout (by decide) (by decide)
  have failed :
      (Rule.parse (insertAt Document.lookCommented 44 (markedLayout [' ']))).toOption.isSome =
        false := by
    decide +kernel
  have parsed := parse_lookCommented
  cases scanned : Scan.strict Document.lookCommented with
  | error fault =>
      rw [Rule.parse, scanned] at parsed
      cases parsed
  | ok scan =>
      have member : 44 ∈ scan.offsets := by
        obtain ⟨rfl, -⟩ := Scan.strictFrom_eq_ok_iff.1 scanned
        decide +kernel
      rw [always _ _ scan parsed scanned 44 member _ isLayout] at failed
      cases failed

end Rule

end Rulebook
