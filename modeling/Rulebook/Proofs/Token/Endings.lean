import Rulebook.Proofs.Token.Layout
import Rulebook.Proofs.Token.Lines

/-!
# Ends of lexemes

Where lexemes end. A lexeme that is read ends in front of what follows it in the text, and it would end
in the same place in front of every text that begins like that one or with a blank.
-/

namespace Rulebook

variable {c : Char} {cs rest other : List Char}

/-- Whether a text begins as another does, as far as a lexeme in front of it shows: with a blank, or with
the first character of the other text and behind it the next one or a blank. A text may end before. -/
inductive BeginsLike (other rest : List Char) : Prop
  | blank :
      (∀ c ∈ other.head?, Text.isBlank c = true) →
      BeginsLike other rest
  | same :
      other.head? = rest.head? →
      (∀ c ∈ other.tail.head?, c ∈ rest.tail.head? ∨ Text.isBlank c = true) →
      BeginsLike other rest

namespace BeginsLike

/-- Texts that begin alike still do so behind a common front. -/
theorem append (like : BeginsLike other rest) (front : List Char) :
    BeginsLike (front ++ other) (front ++ rest) := by
  match front with
  | [] => exact like
  | [d] =>
      refine .same rfl fun c isSecond => ?_
      cases like with
      | blank blank => exact .inr (blank c isSecond)
      | same sameFirst _ => exact .inl (sameFirst ▸ isSecond)
  | d :: e :: others => exact .same rfl fun c isSecond => .inl isSecond

theorem head?_ne_of_mem_signs (like : BeginsLike other rest) (sign : c ∈ Text.signs)
    (different : rest.head? ≠ some c) : other.head? ≠ some c := by
  cases like with
  | blank blank => exact fun isFirst => Text.not_mem_signs_of_isBlank (blank c isFirst) sign
  | same sameFirst _ => rwa [sameFirst]

theorem class_head? {p : Char → Bool} (like : BeginsLike other rest)
    (noBlank : ∀ c, Text.isBlank c = true → p c = false) (stops : ∀ c ∈ rest.head?, p c = false) :
    ∀ c ∈ other.head?, p c = false := by
  cases like with
  | blank blank => exact fun c isFirst => noBlank c (blank c isFirst)
  | same sameFirst _ => rwa [sameFirst]

/-- A lexeme ends in front of all texts that begin alike. -/
theorem endsBefore {lexeme : Lexeme} (like : BeginsLike other rest)
    (ends : lexeme.EndsBefore rest) : lexeme.EndsBefore other := by
  cases lexeme with
  | name _ => exact like.class_head? (fun _ => Text.continuesName_eq_false_of_isBlank) ends
  | keyword _ => exact like.class_head? (fun _ => Text.continuesName_eq_false_of_isBlank) ends
  | number numeral =>
      have noDigit : ∀ c, Text.isBlank c = true → Text.isDigit c = false :=
        fun _ => Text.isDigit_eq_false_of_isBlank
      refine ⟨like.class_head? noDigit ends.1, fun noFraction isPoint d isSecond => ?_⟩
      cases like with
      | blank blank =>
          exact absurd (by decide) (Text.not_mem_signs_of_isBlank (blank '.' isPoint))
      | same sameFirst second =>
          rcases second d isSecond with same | blank
          · exact ends.2 noFraction (sameFirst ▸ isPoint) d same
          · exact noDigit d blank
  | string _ => trivial
  | malformed _ => trivial
  | symbol sign =>
      cases sign with
      | less | greater | assign | not => exact like.head?_ne_of_mem_signs (by decide) ends
      | divide =>
          exact ⟨like.head?_ne_of_mem_signs (by decide) ends.1,
            like.head?_ne_of_mem_signs (by decide) ends.2⟩
      | _ => trivial

end BeginsLike

theorem head?_dropWhile_eq_false {p : Char → Bool} (isFirst : c ∈ (cs.dropWhile p).head?) :
    p c = false := by
  have stopped := List.head?_dropWhile_not p cs
  rw [Option.mem_def.1 isFirst] at stopped
  simpa using stopped

private theorem endsBefore_word (text : String) (rest : List Char) :
    (Piece.word text).EndsBefore rest ↔ ∀ c ∈ rest.head?, continuesName c = false := by
  unfold Piece.word
  split <;> rfl

private theorem endsBefore_numeral (whole : cs = (Piece.numeral cs).chars ++ rest) :
    Lexeme.EndsBefore rest (.number (Piece.numeral cs)) := by
  have split : cs = cs.takeWhile Text.isDigit ++ cs.dropWhile Text.isDigit :=
    List.takeWhile_append_dropWhile.symm
  unfold Piece.numeral at whole ⊢
  split at whole
  · next behind isPoint =>
      by_cases noFraction : (behind.takeWhile Text.isDigit).isEmpty = true
      · rw [if_pos noFraction] at whole ⊢
        have isRest : rest = '.' :: behind := by
          rw [← isPoint]
          exact List.append_cancel_left (whole.symm.trans split)
        subst isRest
        refine ⟨?_, fun _ _ d isSecond => ?_⟩
        · rintro c ⟨⟩
          exact (Text.sign_in_no_class (by decide)).2.1
        · cases behind with
          | nil => cases isSecond
          | cons e others =>
              cases isSecond
              simpa using noFraction
      · rw [if_neg noFraction] at whole ⊢
        have isRest : rest = behind.dropWhile Text.isDigit := by
          rw [isPoint] at split
          have same := whole.symm.trans split
          simp only [Numeral.chars, List.append_assoc, List.append_cancel_left_eq,
            List.cons_append, List.cons.injEq, true_and] at same
          exact List.append_cancel_left (same.trans List.takeWhile_append_dropWhile.symm)
        subst isRest
        exact ⟨fun c isFirst => head?_dropWhile_eq_false isFirst, fun none => by cases none⟩
  · next noPoint =>
      have isRest : rest = cs.dropWhile Text.isDigit :=
        List.append_cancel_left (whole.symm.trans split)
      subst isRest
      refine ⟨fun c isFirst => head?_dropWhile_eq_false isFirst, fun _ isPoint => ?_⟩
      obtain ⟨behind, same⟩ := List.head?_eq_some_iff.1 isPoint
      exact absurd same (noPoint behind)

private theorem endsBefore_symbol {sign : Symbol} (found : Symbol.atStart? (c :: cs) = some sign)
    (noLineComment : ¬ (c = '/' ∧ cs.head? = some '/'))
    (noComment : ¬ (c = '/' ∧ cs.head? = some '*')) :
    Lexeme.EndsBefore (cs.drop (sign.text.length - 1)) (.symbol sign) := by
  have noEquals (single : sign ∈ [.less, .greater, .assign, .not]) : cs.head? ≠ some '=' := by
    have checked : Text.signs.all (fun c => [Symbol.less, .greater, .assign, .not].all fun sign =>
        Symbol.atStart? [c, '='] != some sign) = true := by
      decide
    intro isEquals
    obtain ⟨ds, rfl⟩ := List.head?_eq_some_iff.1 isEquals
    have extended := List.all_eq_true.1
      (List.all_eq_true.1 checked c (mem_signs_of_atStart? found)) sign single
    rw [← atStart?_pair c '=' ds, found] at extended
    simp at extended
  cases sign with
  | less | greater | assign | not => exact noEquals (by decide)
  | divide =>
      obtain ⟨rfl, -⟩ := List.cons_prefix_cons.1 (isPrefix_of_atStart? found)
      exact ⟨fun isSlash => noLineComment ⟨rfl, isSlash⟩, fun isStar => noComment ⟨rfl, isStar⟩⟩
  | _ => trivial

/-- A lexeme that was read ends where the text goes on. -/
theorem endsBefore_of_atStart {lexeme : Lexeme} {length : Nat}
    (found : Piece.atStart c cs = .ok (.lexeme lexeme, length)) :
    lexeme.EndsBefore (cs.drop length) := by
  have pieceAt := pieceAt_of_atStart found
  have isWhole : c :: cs = lexeme.chars ++ cs.drop length := by
    rw [pieceAt.written.2, List.cons_append, List.take_append_drop]
  unfold Piece.atStart at found
  split_ifs at found with blank line comment start digit quote
  · cases found
  · cases found
  · split at found <;> cases found
  · cases found
    rw [endsBefore_word, drop_length_takeWhile]
    exact fun c isFirst => head?_dropWhile_eq_false isFirst
  · cases found
    exact endsBefore_numeral isWhole
  · split at found
    · cases found
      trivial
    · cases found
  · split at found
    · next sign isSymbol =>
        cases found
        exact endsBefore_symbol isSymbol (by simpa using line) (by simpa using comment)
    · cases found

end Rulebook
