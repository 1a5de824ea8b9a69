import Rulebook.Proofs.Token.Lines
import Rulebook.Proofs.Token.Recovery

/-!
# Gaps

Gaps and what follows them. A gap stays one in front of every other text, unless it ends within a
comment that ends with its line, and a scan finds behind a gap what it finds without it.
-/

namespace Rulebook

open Text (Position)

variable {c : Char} {cs rest other gap : List Char}

/-! ## Gaps and what follows them -/

namespace IsGap

/-- What follows a gap matters by its first character only. -/
theorem congr (sameFirst : other.head? = rest.head?) (isGap : IsGap rest gap) :
    IsGap other gap := by
  induction isGap with
  | nil => exact .nil
  | blank blank _ inductionHypothesis => exact .blank blank inductionHypothesis
  | lineComment inLine ends _ inductionHypothesis =>
      refine .lineComment inLine ?_ inductionHypothesis
      rwa [List.head?_append, sameFirst, ← List.head?_append]
  | comment noMark _ inductionHypothesis => exact .comment noMark inductionHypothesis

/-- A gap in front of a character that is no line feed is a gap in front of everything, since it
does not end within a comment that ends with its line. -/
theorem of_head? (isGap : IsGap rest gap) (isFirst : rest.head? = some c) (notLine : c ≠ '\n')
    (other : List Char) : IsGap other gap := by
  induction isGap with
  | nil => exact .nil
  | blank blank _ inductionHypothesis => exact .blank blank inductionHypothesis
  | @lineComment words gap inLine ends _ inductionHypothesis =>
      refine .lineComment inLine ?_ inductionHypothesis
      cases gap with
      | nil => exact absurd (ends c isFirst) notLine
      | cons d others => exact ends
  | comment noMark _ inductionHypothesis => exact .comment noMark inductionHypothesis

/-- A gap at the end of a text is a gap in front of everything, unless it ends within a comment that
ends with its line. -/
theorem forall_or_endsInLine (isGap : IsGap [] gap) :
    (∀ other, IsGap other gap) ∨
      ∃ front words, gap = front ++ '/' :: '/' :: words ∧ '\n' ∉ words ∧
        IsGap ('/' :: '/' :: words) front := by
  induction isGap with
  | nil => exact .inl fun _ => .nil
  | @blank c gap blank _ inductionHypothesis =>
      rcases inductionHypothesis with always | ⟨front, words, rfl, inLine, isFront⟩
      · exact .inl fun other => .blank blank (always other)
      · exact .inr ⟨c :: front, words, rfl, inLine, .blank blank isFront⟩
  | @lineComment words gap inLine ends _ inductionHypothesis =>
      cases gap with
      | nil => exact .inr ⟨[], words, by rw [List.append_nil]; rfl, inLine, .nil⟩
      | cons d others =>
          have isNewline : d = '\n' := ends d rfl
          rcases inductionHypothesis with always | ⟨front, later, split, inLater, isFront⟩
          · refine .inl fun other => .lineComment inLine ?_ (always other)
            rintro c ⟨⟩
            exact isNewline
          · refine .inr ⟨'/' :: '/' :: (words ++ front), later, ?_, inLater, ?_⟩
            · rw [split, List.cons_append, List.cons_append, List.append_assoc]
            · refine .lineComment inLine ?_ isFront
              rw [← split]
              exact fun c isFirst => ends c isFirst
  | @comment words gap noMark _ inductionHypothesis =>
      rcases inductionHypothesis with always | ⟨front, later, rfl, inLater, isFront⟩
      · exact .inl fun other => .comment noMark (always other)
      · refine .inr ⟨'/' :: '*' :: (words ++ '*' :: '/' :: front), later, ?_, inLater,
          .comment noMark isFront⟩
        simp

end IsGap

/-! ## What a scan finds behind a gap -/

namespace Scan

def lexemesOf (cs : List Char) : List Lexeme :=
  (lenientFrom .start cs).tokens.map Token.lexeme

/-- The lexemes of a text do not depend on the place where it stands. -/
theorem lexemesOf_eq (place : Position) (cs : List Char) :
    (lenientFrom place cs).tokens.map Token.lexeme = lexemesOf cs :=
  lexemes_lenientFrom place .start cs

theorem lexemesOf_nil : lexemesOf [] = [] := by
  rw [lexemesOf, lenientFrom_nil]
  rfl

theorem lexemesOf_piece {piece : Piece} (found : Piece.atStart c (cs ++ rest) = .ok (piece, cs.length)) :
    lexemesOf (c :: (cs ++ rest)) =
      (piece.tokens .start).map Token.lexeme ++ lexemesOf rest := by
  rw [lexemesOf, lenientFrom_ok found, lexemes_prepend, List.drop_left, lexemesOf_eq]

/-- A lexeme that ends where its characters do is cut off the text. -/
theorem lexemesOf_chars {lexeme : Lexeme} (written : lexeme.IsWritten)
    (ends : lexeme.EndsBefore rest) :
    lexemesOf (lexeme.chars ++ rest) = lexeme :: lexemesOf rest := by
  cases chars : lexeme.chars with
  | nil => exact absurd chars (chars_ne_nil written)
  | cons c cs => exact lexemesOf_piece (atStart_chars written ends chars)

end Scan

private theorem atStart_lineComment {words : List Char} (inLine : '\n' ∉ words)
    (ends : ∀ c ∈ rest.head?, c = '\n') :
    Piece.atStart '/' ('/' :: (words ++ rest)) = .ok (.gap, words.length + 1) := by
  have noBlank : ¬ Text.isBlank '/' = true := by
    decide
  have taken : ('/' :: (words ++ rest)).takeWhile (· != '\n') = '/' :: words := by
    rw [List.takeWhile_cons_of_pos (by decide), takeWhile_append_of_head]
    · intro c member
      rw [bne_iff_ne]
      rintro rfl
      exact inLine member
    · intro c isFirst
      simp [ends c isFirst]
  rw [Piece.atStart, if_neg noBlank, if_pos (by simp), taken, List.length_cons]

private theorem commentLength?_words {words : List Char} (noMark : ¬ ['*', '/'] <:+: words ++ ['*'])
    (rest : List Char) :
    Piece.commentLength? (words ++ '*' :: '/' :: rest) = some (words.length + 2) := by
  induction words with
  | nil => rfl
  | cons c words inductionHypothesis =>
      rw [List.cons_append, List.infix_cons_iff, not_or] at noMark
      have notHere : ∀ ds, c = '*' → words ++ '*' :: '/' :: rest ≠ '/' :: ds := by
        rintro ds rfl same
        cases words with
        | nil => cases same
        | cons d others =>
            injection same with isSlash _
            exact noMark.1 ⟨others ++ ['*'], by rw [isSlash]; rfl⟩
      rw [List.cons_append, Piece.commentLength?, inductionHypothesis noMark.2]
      · rfl
      · exact notHere

/-- Gaps give no lexemes. -/
theorem Scan.lexemesOf_gap (isGap : IsGap rest gap) :
    lexemesOf (gap ++ rest) = lexemesOf rest := by
  induction isGap with
  | nil => rfl
  | blank blank _ inductionHypothesis =>
      rw [List.cons_append, lexemesOf, lenientFrom_blank blank, lexemesOf_eq, inductionHypothesis]
  | @lineComment words gap inLine ends _ inductionHypothesis =>
      have found : Piece.atStart '/' (('/' :: words) ++ (gap ++ rest)) =
          .ok (.gap, ('/' :: words).length) :=
        atStart_lineComment inLine ends
      rw [← inductionHypothesis, List.cons_append, List.cons_append, List.append_assoc]
      exact lexemesOf_piece found
  | @comment words gap noMark _ inductionHypothesis =>
      have found : Piece.atStart '/' (('*' :: (words ++ ['*', '/'])) ++ (gap ++ rest)) =
          .ok (.gap, ('*' :: (words ++ ['*', '/'])).length) := by
        rw [List.cons_append, List.append_assoc, atStart_comment]
        simp [commentLength?_words noMark]
      have same := lexemesOf_piece found
      rw [inductionHypothesis] at same
      simpa [Piece.tokens] using same

/-- A text without lexemes is a gap. -/
theorem Scan.isGap_of_lexemesOf (noLexemes : lexemesOf cs = []) : IsGap [] cs := by
  have sound : (lenientFrom .start cs).IsSound := by
    intro fault
    change _ ∉ lexemesOf cs
    rw [noLexemes]
    exact List.not_mem_nil
  have layout : Layout .start cs (lenientFrom .start cs) :=
    .of_strictFrom (strictFrom_eq_ok_iff.2 ⟨rfl, sound⟩)
  rw [lexemesOf] at noLexemes
  generalize lenientFrom .start cs = scan at layout noLexemes
  cases layout with
  | finish isGap => exact isGap
  | lexeme _ _ _ _ => cases noLexemes

theorem Scan.lexemesOf_lineComment {words rest : List Char} (inLine : '\n' ∉ words)
    (ends : ∀ c ∈ rest.head?, c = '\n') :
    lexemesOf ('/' :: '/' :: (words ++ rest)) = lexemesOf rest := by
  have isGap : IsGap rest ('/' :: '/' :: (words ++ [])) := .lineComment inLine ends .nil
  have same := lexemesOf_gap isGap
  rwa [List.append_nil] at same

end Rulebook
