import Mathlib.Data.List.TakeWhile
import Mathlib.Tactic.SplitIfs
import Rulebook.Token.Scan

/-!
# Pieces of a text

What the pieces of a text can be. Every fact about a piece that was read, such as how many characters
it has, is derived from one list of cases.
-/

namespace Rulebook

open Text (Position)

variable {c : Char} {cs : List Char}

/-- `PieceAt c cs piece length` lists the pieces with which a text can begin, given by its first
character and the others, and how many of the others belong to the piece. -/
inductive PieceAt (c : Char) (cs : List Char) : Piece → Nat → Prop
  | blanks :
      Text.isBlank c = true →
      PieceAt c cs .gap (cs.takeWhile Text.isBlank).length
  | lineComment :
      c = '/' →
      cs.head? = some '/' →
      PieceAt c cs .gap (cs.takeWhile (· != '\n')).length
  | comment {length : Nat} :
      c = '/' →
      cs.head? = some '*' →
      Piece.commentLength? cs.tail = some length →
      PieceAt c cs .gap (length + 1)
  | word :
      startsName c = true →
      PieceAt c cs (.lexeme (Piece.word (String.ofList (c :: cs.takeWhile continuesName))))
        (cs.takeWhile continuesName).length
  | number :
      Text.isDigit c = true →
      PieceAt c cs (.lexeme (.number (Piece.numeral (c :: cs))))
        ((Piece.numeral (c :: cs)).chars.length - 1)
  | string {text : Text.Quotable} {length : Nat} :
      c = '"' →
      Text.quotedText? cs = some (text, length) →
      PieceAt c cs (.lexeme (.string text)) length
  | symbol {sign : Symbol} :
      Symbol.atStart? (c :: cs) = some sign →
      PieceAt c cs (.lexeme (.symbol sign)) (sign.text.length - 1)

theorem pieceAt_of_atStart {piece : Piece} {length : Nat}
    (found : Piece.atStart c cs = .ok (piece, length)) : PieceAt c cs piece length := by
  unfold Piece.atStart at found
  split_ifs at found with blank line comment start digit quote
  · cases found
    exact .blanks blank
  · cases found
    simp only [Bool.and_eq_true, decide_eq_true_eq] at line
    exact .lineComment line.1 line.2
  · split at found
    · next isClosed =>
        cases found
        simp only [Bool.and_eq_true, decide_eq_true_eq] at comment
        exact .comment comment.1 comment.2 isClosed
    · cases found
  · cases found
    exact .word start
  · cases found
    exact .number digit
  · split at found
    · next isClosed =>
        cases found
        exact .string quote isClosed
    · cases found
  · split at found
    · next isSymbol =>
        cases found
        exact .symbol isSymbol
    · cases found

private theorem commentLength?_le {length : Nat} (closed : Piece.commentLength? cs = some length) :
    length ≤ cs.length := by
  fun_induction Piece.commentLength? cs generalizing length with
  | case1 => cases closed
  | case2 rest =>
      cases closed
      simp
  | case3 c cs _ inductionHypothesis =>
      obtain ⟨inner, isClosed, rfl⟩ := Option.map_eq_some_iff.1 closed
      exact Nat.succ_le_succ (inductionHypothesis isClosed)

theorem readQuoted?_le {text : List Char} {length : Nat}
    (closed : Text.readQuoted? cs = some (text, length)) : length ≤ cs.length := by
  fun_induction Text.readQuoted? cs generalizing text length with
  | case1 => cases closed
  | case2 cs inductionHypothesis =>
      obtain ⟨⟨inner, taken⟩, isClosed, same⟩ := Option.map_eq_some_iff.1 closed
      cases same
      have bound := inductionHypothesis isClosed
      simp only [List.length_cons]
      omega
  | case3 cs =>
      cases closed
      simp
  | case4 c cs _ _ inductionHypothesis =>
      obtain ⟨⟨inner, taken⟩, isClosed, same⟩ := Option.map_eq_some_iff.1 closed
      cases same
      exact Nat.succ_le_succ (inductionHypothesis isClosed)

private theorem quotedText?_le {text : Text.Quotable} {length : Nat}
    (closed : Text.quotedText? cs = some (text, length)) : length ≤ cs.length := by
  unfold Text.quotedText? at closed
  split at closed
  · cases closed
  · next read =>
      cases closed
      exact readQuoted?_le read

theorem numeral_isPrefix (cs : List Char) : (Piece.numeral cs).chars <+: cs := by
  have whole : cs.takeWhile Text.isDigit ++ cs.dropWhile Text.isDigit = cs :=
    List.takeWhile_append_dropWhile
  unfold Piece.numeral
  split
  · next behind isPoint =>
      by_cases noFraction : (behind.takeWhile Text.isDigit).isEmpty = true
      · simp only [noFraction, if_true, Numeral.chars]
        exact ⟨_, whole⟩
      · simp only [noFraction, Numeral.chars]
        refine ⟨behind.dropWhile Text.isDigit, ?_⟩
        rw [isPoint] at whole
        simpa [List.takeWhile_append_dropWhile] using whole
  · exact ⟨_, whole⟩

private theorem length_text_le {sign : Symbol} (found : Symbol.atStart? cs = some sign) :
    sign.text.length ≤ cs.length := by
  revert found
  fun_cases Symbol.atStart? cs with
  | case23 =>
      intro found
      cases found
  | _ =>
      intro found
      cases found
      exact Nat.le_add_left _ _

theorem PieceAt.le {piece : Piece} {length : Nat} (pieceAt : PieceAt c cs piece length) :
    length ≤ cs.length := by
  cases pieceAt with
  | blanks _ => exact (List.takeWhile_prefix _).length_le
  | lineComment _ _ => exact (List.takeWhile_prefix _).length_le
  | comment _ isStar closed =>
      obtain ⟨rest, rfl⟩ := List.head?_eq_some_iff.1 isStar
      exact Nat.succ_le_succ (commentLength?_le closed)
  | word _ => exact (List.takeWhile_prefix _).length_le
  | number _ =>
      have bound := (numeral_isPrefix (c :: cs)).length_le
      rw [List.length_cons] at bound
      omega
  | string _ closed => exact quotedText?_le closed
  | symbol found =>
      have bound := length_text_le found
      rw [List.length_cons] at bound
      omega

/-- A piece that was read is not malformed. -/
theorem PieceAt.malformed_notMem {piece : Piece} {length : Nat}
    (pieceAt : PieceAt c cs piece length) (place : Position) (fault : LexicalFault) :
    .malformed fault ∉ (piece.tokens place).map Token.lexeme := by
  cases pieceAt with
  | word _ =>
      unfold Piece.word
      split <;> simp [Piece.tokens]
  | _ => simp [Piece.tokens]

/-- A name that was read has a character at least. -/
theorem PieceAt.name_ne_empty {piece : Piece} {length : Nat}
    (pieceAt : PieceAt c cs piece length) (place : Position) {name : String}
    (member : .name name ∈ (piece.tokens place).map Token.lexeme) : name ≠ "" := by
  cases pieceAt with
  | word _ =>
      rw [Piece.word] at member
      split at member
      · simp [Piece.tokens] at member
      · simp only [Piece.tokens, List.map_cons, List.map_nil, List.mem_singleton,
          Lexeme.name.injEq] at member
        rw [member]
        intro isEmpty
        have noCharacters := congrArg String.toList isEmpty
        rw [String.toList_ofList] at noCharacters
        cases noCharacters
  | _ => simp [Piece.tokens] at member

end Rulebook
