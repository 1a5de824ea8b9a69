import Rulebook.Proofs.Token.Endings
import Rulebook.Proofs.Token.Gaps

/-!
# Insertions in front of a token

What may be put in front of a token. A text is cut into whole lexemes and gaps in front of each of its
tokens and at its end, and it stays so cut whatever gap begins there with a blank. Only a comment that
ends with its line goes on into what is put behind it, up to the first line feed.
-/

namespace Rulebook

open Text (Position)

variable {c : Char} {cs rest other front gap : List Char}

/-! ## Texts cut in front of a token -/

/-- `CutBefore rest front lexemes` means that the part of a text in front of the rest consists of whole
lexemes and gaps. -/
inductive CutBefore (rest : List Char) : List Char → List Lexeme → Prop
  | nil : CutBefore rest [] []
  | gap {gap front : List Char} {lexemes : List Lexeme} :
      IsGap (front ++ rest) gap →
      CutBefore rest front lexemes →
      CutBefore rest (gap ++ front) lexemes
  | lexeme {lexeme : Lexeme} {front : List Char} {lexemes : List Lexeme} :
      lexeme.IsWritten →
      lexeme.EndsBefore (front ++ rest) →
      CutBefore rest front lexemes →
      CutBefore rest (lexeme.chars ++ front) (lexeme :: lexemes)

/-- Whether a text ends within a comment that ends with its line: such a comment begins where a lexeme
or a gap of the text ends, and there is no line feed in it. -/
def EndsInLineComment (cs : List Char) : Prop :=
  ∃ front words lexemes, cs = front ++ '/' :: '/' :: words ∧ '\n' ∉ words ∧
    CutBefore ('/' :: '/' :: words) front lexemes

namespace EndsInLineComment

theorem behindGap (inComment : EndsInLineComment cs) (isGap : IsGap (cs ++ []) gap) :
    EndsInLineComment (gap ++ cs) := by
  obtain ⟨front, words, lexemes, rfl, inLine, cut⟩ := inComment
  rw [List.append_nil] at isGap
  exact ⟨gap ++ front, words, lexemes, (List.append_assoc _ _ _).symm, inLine, .gap isGap cut⟩

private theorem behindLexeme {lexeme : Lexeme} (inComment : EndsInLineComment cs)
    (written : lexeme.IsWritten) (ends : lexeme.EndsBefore (cs ++ [])) :
    EndsInLineComment (lexeme.chars ++ cs) := by
  obtain ⟨front, words, lexemes, rfl, inLine, cut⟩ := inComment
  rw [List.append_nil] at ends
  exact ⟨lexeme.chars ++ front, words, lexeme :: lexemes, (List.append_assoc _ _ _).symm, inLine,
    .lexeme written ends cut⟩

end EndsInLineComment

namespace CutBefore

variable {lexemes : List Lexeme}

/-- A text that may be cut is cut into the lexemes of its two parts. -/
theorem lexemesOf_append (cut : CutBefore rest front lexemes) :
    Scan.lexemesOf (front ++ rest) = lexemes ++ Scan.lexemesOf rest := by
  induction cut with
  | nil => rfl
  | gap isGap _ inductionHypothesis =>
      rw [List.append_assoc, Scan.lexemesOf_gap isGap, inductionHypothesis]
  | lexeme written ends _ inductionHypothesis =>
      rw [List.append_assoc, Scan.lexemesOf_chars written ends, inductionHypothesis,
        List.cons_append]

/-- The cut stays where another rest begins alike and gaps in front of the rest are gaps in front of
the other. -/
theorem congr (cut : CutBefore rest front lexemes) (like : BeginsLike other rest)
    (gaps : ∀ gap, IsGap rest gap → IsGap other gap) : CutBefore other front lexemes := by
  induction cut with
  | nil => exact .nil
  | @gap gap front lexemes isGap _ inductionHypothesis =>
      refine .gap ?_ inductionHypothesis
      cases front with
      | nil => exact gaps gap isGap
      | cons d others => exact isGap.congr (by rfl)
  | lexeme written ends _ inductionHypothesis =>
      exact .lexeme written ((like.append _).endsBefore ends) inductionHypothesis

private theorem forall_or_endsInLineComment (cut : CutBefore [] front lexemes) :
    (∀ other, (∀ c ∈ other.head?, Text.isBlank c = true) → CutBefore other front lexemes) ∨
      EndsInLineComment front := by
  induction cut with
  | nil => exact .inl fun _ _ => .nil
  | @gap gap front lexemes isGap _ inductionHypothesis =>
      rcases inductionHypothesis with always | inComment
      · cases front with
        | nil =>
            rcases isGap.forall_or_endsInLine with isAlways | ⟨before, words, rfl, inLine, isFront⟩
            · exact .inl fun other blank => .gap (isAlways other) (always other blank)
            · exact .inr ⟨before ++ [], words, [], by simp, inLine, .gap (by simpa using isFront) .nil⟩
        | cons d others =>
            refine .inl fun other blank => .gap ?_ (always other blank)
            exact isGap.congr (by rfl)
      · exact .inr (inComment.behindGap isGap)
  | @lexeme _ front _ written ends _ inductionHypothesis =>
      rcases inductionHypothesis with always | inComment
      · refine .inl fun other blank => .lexeme written ?_ (always other blank)
        exact ((BeginsLike.blank blank).append front).endsBefore ends
      · exact .inr (inComment.behindLexeme written ends)

end CutBefore

theorem Scan.not_isBlank_of_mem_offsets {place : Position} {scan : Scan}
    (scanned : strictFrom place (c :: cs) = .ok scan) (member : place.offset ∈ scan.offsets) :
    Text.isBlank c = false := by
  rw [Bool.eq_false_iff]
  intro blank
  obtain ⟨same, -⟩ := strictFrom_eq_ok_iff.1 scanned
  rw [lenientFrom_blank blank] at same
  rw [← same] at member
  have later := le_of_mem_offsets member
  rw [Position.offset_after] at later
  omega

theorem Scan.offsets_prepend (tokens : List Token) (scan : Scan) :
    (scan.prepend tokens).offsets = tokens.map (·.place.offset) ++ scan.offsets := by
  rw [offsets, prepend, List.map_append, List.append_assoc]
  rfl

/-- No token begins within a piece. -/
theorem Scan.le_of_mem_offsets_prepend {place : Position} {piece : Piece} {length further : Nat}
    {later : Scan} (found : Piece.atStart c cs = .ok (piece, length))
    (scanned : strictFrom (place.afterAll (c :: cs.take length)) (cs.drop length) = .ok later)
    (member : place.offset + (further + 1) ∈ (later.prepend (piece.tokens place)).offsets) :
    length ≤ further ∧ place.offset + (further + 1) ∈ later.offsets := by
  have isLater : place.offset + (further + 1) ∈ later.offsets := by
    rw [offsets_prepend] at member
    refine (List.mem_append.1 member).resolve_left fun isHere => ?_
    cases piece with
    | gap => cases isHere
    | lexeme lexeme =>
        have samePlace := List.mem_singleton.1 isHere
        simp at samePlace
  refine ⟨?_, isLater⟩
  rw [← (strictFrom_eq_ok_iff.1 scanned).1] at isLater
  have behind := le_of_mem_offsets isLater
  rw [Position.offset_afterAll, List.length_cons,
    List.length_take_of_le (pieceAt_of_atStart found).le] at behind
  omega

/-- A text is cut into whole lexemes and gaps in front of each token that a scan finds, and at its
end. -/
theorem Scan.exists_cutBefore {place : Position} {before behind : List Char} {scan : Scan}
    (scanned : strictFrom place (before ++ behind) = .ok scan)
    (member : place.offset + before.length ∈ scan.offsets) :
    (∃ lexemes, CutBefore behind before lexemes) ∧ ∀ c ∈ behind.head?, Text.isBlank c = false := by
  generalize whole : before ++ behind = cs at scanned
  fun_induction strictFrom place cs generalizing before scan with
  | case1 place =>
      obtain ⟨rfl, rfl⟩ := List.append_eq_nil_iff.1 whole
      exact ⟨⟨[], .nil⟩, fun _ none => by cases none⟩
  | case2 place c cs cause failed => cases scanned
  | case3 place c cs piece length found inductionHypothesis =>
      cases before with
      | nil =>
          obtain rfl : behind = c :: cs := whole
          have scannedHere : strictFrom place (c :: cs) = .ok scan := by
            rw [strictFrom, found]
            exact scanned
          refine ⟨⟨[], .nil⟩, ?_⟩
          rintro d ⟨⟩
          exact not_isBlank_of_mem_offsets scannedHere member
      | cons d before =>
          rw [List.cons_append] at whole
          obtain ⟨rfl, rfl⟩ := List.cons.inj whole
          obtain ⟨later, scannedLater, rfl⟩ := exists_of_map_eq_ok scanned
          obtain ⟨inside, isLater⟩ := le_of_mem_offsets_prepend found scannedLater member
          have pieceAt := pieceAt_of_atStart found
          have taken : (before ++ behind).take length = before.take length :=
            List.take_append_of_le_length inside
          have dropped : (before ++ behind).drop length = before.drop length ++ behind :=
            List.drop_append_of_le_length inside
          have sameOffset : (place.afterAll (d :: (before ++ behind).take length)).offset +
              (before.drop length).length = place.offset + (before.length + 1) := by
            rw [Position.offset_afterAll, taken, List.length_cons, List.length_take_of_le inside,
              List.length_drop]
            omega
          obtain ⟨⟨lexemes, cut⟩, notBlank⟩ :=
            inductionHypothesis (sameOffset ▸ isLater) dropped.symm scannedLater
          refine ⟨?_, notBlank⟩
          rw [← List.take_append_drop length before, ← List.cons_append]
          cases piece with
          | gap =>
              have isGap := pieceAt.isGap
              rw [taken, dropped] at isGap
              exact ⟨lexemes, .gap isGap cut⟩
          | lexeme lexeme =>
              obtain ⟨written, chars⟩ := pieceAt.written
              have ends := endsBefore_of_atStart found
              rw [dropped] at ends
              rw [← taken, ← chars]
              exact ⟨lexeme :: lexemes, .lexeme written ends cut⟩

/-! ## Layout in front of a token -/

/-- `IsLayout layout` lists what may be put in front of a token: blanks, a comment between marks with
blanks on both sides, or blanks and a comment that ends with its line, with the line feed. -/
inductive IsLayout : List Char → Prop
  | blanks {blanks : List Char} :
      (∀ c ∈ blanks, Text.isBlank c = true) →
      IsLayout blanks
  | comment {blanks words others : List Char} :
      blanks ≠ [] →
      (∀ c ∈ blanks, Text.isBlank c = true) →
      ¬ ['*', '/'] <:+: words ++ ['*'] →
      others ≠ [] →
      (∀ c ∈ others, Text.isBlank c = true) →
      IsLayout (blanks ++ '/' :: '*' :: (words ++ '*' :: '/' :: others))
  | lineComment {blanks words : List Char} :
      blanks ≠ [] →
      (∀ c ∈ blanks, Text.isBlank c = true) →
      '\n' ∉ words →
      IsLayout (blanks ++ '/' :: '/' :: (words ++ ['\n']))

namespace IsLayout

variable {layout : List Char}

theorem isGap (isLayout : IsLayout layout) (rest : List Char) : IsGap rest layout := by
  cases isLayout with
  | blanks blank => exact .of_blanks blank
  | comment _ blank noMark _ blankLater =>
      exact IsGap.append (.of_blanks blank) (.comment noMark (.of_blanks blankLater))
  | lineComment _ blank inLine =>
      have newline : IsGap rest ['\n'] := .blank (by decide) .nil
      exact IsGap.append (.of_blanks blank) (.lineComment inLine (by rintro c ⟨⟩; rfl) newline)

theorem begins (isLayout : IsLayout layout) : ∀ c ∈ layout.head?, Text.isBlank c = true := by
  have ofBlanks {blanks others : List Char} (nonempty : blanks ≠ [])
      (blank : ∀ c ∈ blanks, Text.isBlank c = true) :
      ∀ c ∈ (blanks ++ others).head?, Text.isBlank c = true := by
    cases blanks with
    | nil => exact absurd rfl nonempty
    | cons d blanks => exact fun c isFirst => blank c (List.mem_of_mem_head? isFirst)
  cases isLayout with
  | blanks blank => exact fun c isFirst => blank c (List.mem_of_mem_head? isFirst)
  | comment nonempty blank _ _ _ => exact ofBlanks nonempty blank
  | lineComment nonempty blank _ => exact ofBlanks nonempty blank

end IsLayout

namespace Scan

variable {before behind layout : List Char} {lexemes : List Lexeme}

/-- Layout in front of a token changes no lexeme. -/
theorem lexemesOf_insert (cut : CutBefore behind before lexemes) (isLayout : IsLayout layout)
    (isFirst : behind.head? = some c) (notBlank : Text.isBlank c = false) :
    lexemesOf (before ++ (layout ++ behind)) = lexemesOf (before ++ behind) := by
  have notLine : c ≠ '\n' := by
    rintro rfl
    exact absurd notBlank (by decide)
  have cutLayout : CutBefore (layout ++ behind) before lexemes := by
    cases layout with
    | nil => exact cut
    | cons d others =>
        refine cut.congr (.blank ?_) fun gap isGap => isGap.of_head? isFirst notLine _
        exact fun c isFirst => isLayout.begins c isFirst
  rw [cutLayout.lexemesOf_append, lexemesOf_gap (isLayout.isGap behind),
    cut.lexemesOf_append]

/-- At the end of a text layout changes no lexeme, unless the text ends within a comment that ends with
its line. -/
theorem lexemesOf_append_layout (cut : CutBefore [] before lexemes) (isLayout : IsLayout layout) :
    lexemesOf (before ++ layout) = lexemesOf before ∨ EndsInLineComment before := by
  rcases cut.forall_or_endsInLineComment with always | inComment
  · have noLexemes := lexemesOf_gap (isLayout.isGap [])
    have plain := cut.lexemesOf_append
    rw [List.append_nil] at noLexemes plain
    refine .inl ?_
    rw [(always layout isLayout.begins).lexemesOf_append, noLexemes, plain]
  · exact .inr inComment

/-- Behind a comment that ends with its line, what is put there counts from its first line feed on. -/
theorem lexemesOf_append_of_endsInLineComment (inComment : EndsInLineComment before)
    (behind : List Char) :
    lexemesOf (before ++ behind) =
      lexemesOf before ++ lexemesOf (behind.dropWhile (· != '\n')) := by
  obtain ⟨front, words, lexemes, rfl, inLine, cut⟩ := inComment
  have cutLonger : CutBefore ('/' :: '/' :: (words ++ behind)) front lexemes :=
    cut.congr (.same rfl fun c isSecond => .inl isSecond) fun _ isGap => isGap.congr (by rfl)
  have inLineLonger : '\n' ∉ words ++ behind.takeWhile (· != '\n') := by
    rw [List.mem_append, not_or]
    exact ⟨inLine, fun member => by simpa using List.mem_takeWhile_imp member⟩
  have ends : ∀ c ∈ (behind.dropWhile (· != '\n')).head?, c = '\n' := by
    intro c isFirst
    simpa using head?_dropWhile_eq_false isFirst
  have comment : lexemesOf ('/' :: '/' :: words) = [] := by
    have same := @lexemesOf_lineComment words [] inLine fun _ none => by cases none
    rwa [List.append_nil, lexemesOf_nil] at same
  have commentLonger : lexemesOf ('/' :: '/' :: (words ++ behind)) =
      lexemesOf (behind.dropWhile (· != '\n')) := by
    rw [← lexemesOf_lineComment inLineLonger ends, List.append_assoc,
      List.takeWhile_append_dropWhile]
  rw [cut.lexemesOf_append, comment, List.append_nil, List.append_assoc]
  exact cutLonger.lexemesOf_append.trans (congrArg (lexemes ++ ·) commentLonger)

end Scan

end Rulebook
