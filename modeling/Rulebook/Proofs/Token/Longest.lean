import Rulebook.Proofs.Token.Pieces
import Rulebook.Proofs.Token.Spelling

/-!
# Longest lexemes

The lexeme that begins a text: it has the very characters of the text, it is written as the grammar
of lexemes has it, and no lexeme of the grammar that begins the text is longer.
-/

namespace Rulebook

open Text (Quotable)

variable {c : Char} {cs : List Char}

/-! ## Characters of the lexeme -/

private theorem text_of_ofText? {word : String} {keyword : Keyword}
    (found : Keyword.ofText? word = some keyword) : keyword.text = word := by
  have isSpelled := List.find?_some found
  exact eq_of_beq isSpelled

private theorem chars_word (text : String) : (Piece.word text).chars = text.toList := by
  unfold Piece.word
  split
  · next found => rw [Lexeme.chars, text_of_ofText? found]
  · rfl

private theorem isWritten_word (start : startsName c = true)
    (continued : ∀ d ∈ cs, continuesName d = true) :
    (Piece.word (String.ofList (c :: cs))).IsWritten := by
  unfold Piece.word
  split
  · trivial
  · next plain => exact ⟨c, cs, String.toList_ofList, start, continued, plain⟩

private theorem isWritten_numeral (digit : Text.isDigit c = true) :
    (Piece.numeral (c :: cs)).WellFormed := by
  have digits (ds : List Char) : ∀ d ∈ ds.takeWhile Text.isDigit, Text.isDigit d = true :=
    fun _ => List.mem_takeWhile_imp
  have begins : (c :: cs).takeWhile Text.isDigit ≠ [] := by
    simp [digit]
  unfold Piece.numeral
  split
  · next behind _ =>
      by_cases noFraction : (behind.takeWhile Text.isDigit).isEmpty = true
      · rw [if_pos noFraction]
        exact ⟨begins, digits _, fun _ member => (by cases member), fun _ member => by cases member⟩
      · rw [if_neg noFraction]
        refine ⟨begins, digits _, ?_, ?_⟩
        · rintro fraction ⟨⟩
          exact fun isEmpty => noFraction (List.isEmpty_iff.2 isEmpty)
        · rintro fraction ⟨⟩
          exact digits behind
  · exact ⟨begins, digits _, fun _ member => (by cases member), fun _ member => by cases member⟩

/-- What was read behind an opening quote stands there as it is written, with the closing one. -/
theorem take_of_readQuoted? {text : List Char} {length : Nat}
    (closed : Text.readQuoted? cs = some (text, length)) :
    cs.take length = Quotable.escape text ++ ['"'] := by
  fun_induction Text.readQuoted? cs generalizing text length with
  | case1 => cases closed
  | case2 cs inductionHypothesis =>
      obtain ⟨⟨inner, taken⟩, read, same⟩ := Option.map_eq_some_iff.1 closed
      cases same
      simp [Quotable.escape, inductionHypothesis read]
  | case3 cs =>
      cases closed
      rfl
  | case4 c cs _ noQuote inductionHypothesis =>
      obtain ⟨⟨inner, taken⟩, read, same⟩ := Option.map_eq_some_iff.1 closed
      cases same
      simp [Quotable.escape, noQuote, inductionHypothesis read]

private theorem take_of_quotedText? {text : Quotable} {length : Nat}
    (closed : Text.quotedText? cs = some (text, length)) :
    '"' :: cs.take length = text.written.toList := by
  unfold Text.quotedText? at closed
  split at closed
  · cases closed
  · next read =>
      cases closed
      simp [Quotable.written, take_of_readQuoted? read]

theorem isPrefix_of_atStart? {sign : Symbol} (found : Symbol.atStart? cs = some sign) :
    sign.text.toList <+: cs := by
  revert found
  fun_cases Symbol.atStart? cs with
  | case23 =>
      intro found
      cases found
  | _ =>
      intro found
      cases found
      exact List.prefix_append _ _

theorem cons_take_of_isPrefix {ds : List Char} (begins : ds <+: c :: cs) (nonempty : ds ≠ []) :
    ds = c :: cs.take (ds.length - 1) := by
  cases ds with
  | nil => exact absurd rfl nonempty
  | cons d ds =>
      obtain ⟨rfl, beginsLater⟩ := List.cons_prefix_cons.1 begins
      exact congrArg (d :: ·) (List.prefix_iff_eq_take.1 beginsLater)

/-- A lexeme that was read is written as the text begins. -/
theorem PieceAt.written {lexeme : Lexeme} {length : Nat}
    (pieceAt : PieceAt c cs (.lexeme lexeme) length) :
    lexeme.IsWritten ∧ lexeme.chars = c :: cs.take length := by
  cases pieceAt with
  | word start =>
      refine ⟨isWritten_word start fun _ => List.mem_takeWhile_imp, ?_⟩
      rw [chars_word, String.toList_ofList]
      exact congrArg (c :: ·) (List.prefix_iff_eq_take.1 (List.takeWhile_prefix _))
  | number digit =>
      have wellFormed : (Piece.numeral (c :: cs)).WellFormed := isWritten_numeral digit
      exact ⟨wellFormed, cons_take_of_isPrefix (numeral_isPrefix (c :: cs))
        (@chars_ne_nil (.number _) wellFormed)⟩
  | string isQuote closed => exact ⟨trivial, isQuote ▸ (take_of_quotedText? closed).symm⟩
  | @symbol sign found =>
      refine ⟨trivial, ?_⟩
      rw [← String.length_toList]
      exact cons_take_of_isPrefix (isPrefix_of_atStart? found)
        (@chars_ne_nil (.symbol sign) trivial)

/-! ## Longest match -/

/-- What begins like a name is the longest word there. -/
theorem atStart_of_startsName (start : startsName c = true) :
    Piece.atStart c cs =
      .ok (.lexeme (Piece.word (String.ofList (c :: cs.takeWhile continuesName))),
        (cs.takeWhile continuesName).length) := by
  have notBlank : Text.isBlank c = false := Text.isBlank_eq_false_of_startsName start
  have notSlash : c ≠ '/' := by
    rintro rfl
    exact Text.not_mem_signs_of_startsName start (by decide)
  simp [Piece.atStart, notBlank, notSlash, start]

private theorem atStart_of_isDigit (digit : Text.isDigit c = true) :
    Piece.atStart c cs =
      .ok (.lexeme (.number (Piece.numeral (c :: cs))),
        (Piece.numeral (c :: cs)).chars.length - 1) := by
  have notBlank : Text.isBlank c = false := Text.isBlank_eq_false_of_isDigit digit
  have notName : startsName c = false := Text.startsName_eq_false_of_isDigit digit
  have notSlash : c ≠ '/' := by
    rintro rfl
    exact Text.not_mem_signs_of_isDigit digit (by decide)
  simp [Piece.atStart, notBlank, notName, notSlash, digit]

theorem length_le_takeWhile {p : Char → Bool} {ds : List Char} (begins : ds <+: cs)
    (all : ∀ d ∈ ds, p d = true) : ds.length ≤ (cs.takeWhile p).length := by
  obtain ⟨rest, rfl⟩ := begins
  rw [List.takeWhile_append_of_pos all, List.length_append]
  exact Nat.le_add_right _ _

private theorem whole_numeral (cs : List Char) :
    (Piece.numeral cs).whole = cs.takeWhile Text.isDigit := by
  simp only [Piece.numeral]
  split
  · split <;> rfl
  · rfl

theorem Numeral.length_whole_le (numeral : Numeral) :
    numeral.whole.length ≤ numeral.chars.length := by
  unfold Numeral.chars
  split
  · exact Nat.le_refl _
  · rw [List.length_append]
    exact Nat.le_add_right _ _

/-- No written number with which a text begins is longer than the one that is read there. -/
theorem length_le_numeral {numeral : Numeral} (written : numeral.WellFormed)
    (begins : numeral.chars <+: cs) :
    numeral.chars.length ≤ (Piece.numeral cs).chars.length := by
  obtain ⟨whole, fraction?⟩ := numeral
  have wholeDigits : ∀ d ∈ whole, Text.isDigit d = true := written.whole_digits
  cases fraction? with
  | none =>
      have bound : whole.length ≤ (cs.takeWhile Text.isDigit).length :=
        length_le_takeWhile begins wholeDigits
      rw [← whole_numeral] at bound
      exact bound.trans (Numeral.length_whole_le _)
  | some fraction =>
      have fractionDigits : ∀ d ∈ fraction, Text.isDigit d = true :=
        written.fraction_digits fraction rfl
      have fractionNotEmpty : fraction ≠ [] := written.fraction_ne_nil fraction rfl
      obtain ⟨rest, rfl⟩ := begins
      have pointEnds : ∀ d ∈ ('.' :: (fraction ++ rest)).head?, Text.isDigit d = false := by
        rintro d ⟨⟩
        decide
      have takenWhole := takeWhile_append_of_head wholeDigits pointEnds
      have leftWhole := dropWhile_append_of_head wholeDigits pointEnds
      have bound : fraction.length ≤ ((fraction ++ rest).takeWhile Text.isDigit).length :=
        length_le_takeWhile (List.prefix_append _ _) fractionDigits
      have notEmpty : (fraction ++ rest).takeWhile Text.isDigit ≠ [] := by
        intro isEmpty
        rw [isEmpty, List.length_nil, Nat.le_zero, List.length_eq_zero_iff] at bound
        exact fractionNotEmpty bound
      simp only [Numeral.chars, Piece.numeral, List.append_assoc, List.cons_append, takenWhole,
        leftWhole, List.isEmpty_iff, notEmpty, if_false, List.length_append, List.length_cons]
      omega

/-- No symbol with which a text begins is longer than the one that is read there. -/
theorem length_le_symbol {symbol found : Symbol} (begins : symbol.text.toList <+: cs)
    (isFound : Symbol.atStart? cs = some found) : symbol.text.length ≤ found.text.length := by
  obtain ⟨rest, rfl⟩ := begins
  cases symbol with
  | and | or | equal | notEqual | lessEqual | greaterEqual =>
      cases isFound
      exact Nat.le_refl _
  | _ => exact (show 1 ≤ found.text.length by cases found <;> decide)

private theorem symbol_of_atStart {lexeme : Lexeme} {length : Nat} (sign : c ∈ Text.signs)
    (noQuote : c ≠ '"') (found : Piece.atStart c cs = .ok (.lexeme lexeme, length)) :
    ∃ symbol : Symbol, Symbol.atStart? (c :: cs) = some symbol ∧
      length = symbol.text.length - 1 := by
  cases pieceAt_of_atStart found with
  | word start => exact absurd sign (Text.not_mem_signs_of_startsName start)
  | number digit => exact absurd sign (Text.not_mem_signs_of_isDigit digit)
  | string isQuote _ => exact absurd isQuote noQuote
  | symbol isSymbol => exact ⟨_, isSymbol, rfl⟩

/-- No lexeme with which a text begins is longer than the one that is read there. -/
theorem length_le_of_atStart {lexeme other : Lexeme} {length : Nat}
    (found : Piece.atStart c cs = .ok (.lexeme lexeme, length)) (written : other.IsWritten)
    (begins : other.chars <+: c :: cs) : other.chars.length ≤ length + 1 := by
  obtain ⟨d, ds, chars⟩ := List.exists_cons_of_ne_nil (chars_ne_nil written)
  obtain ⟨rfl, beginsLater⟩ := List.cons_prefix_cons.1 (chars ▸ begins)
  rw [chars, List.length_cons]
  refine Nat.succ_le_succ ?_
  -- the first character of the other lexeme tells how the text was read
  cases other with
  | name text =>
      obtain ⟨d, ds, spelled, start, continued, _⟩ := written
      cases spelled.symm.trans chars
      cases (atStart_of_startsName start).symm.trans found
      exact length_le_takeWhile beginsLater continued
  | keyword word =>
      obtain ⟨d, ds, spelled, start, continued⟩ := keyword_chars word
      cases spelled.symm.trans chars
      cases (atStart_of_startsName start).symm.trans found
      exact length_le_takeWhile beginsLater continued
  | number numeral =>
      cases (atStart_of_isDigit (isDigit_of_chars written chars)).symm.trans found
      have bound := length_le_numeral written begins
      rw [show numeral.chars = d :: ds from chars, List.length_cons] at bound
      exact Nat.le_sub_one_of_lt bound
  | string quotable =>
      obtain ⟨rest, rfl⟩ := beginsLater
      have spelled : '"' :: (Quotable.escape quotable.text.toList ++ ['"']) = d :: ds := by
        simpa [Lexeme.chars, Quotable.written] using chars
      cases spelled
      have read := atStart_string quotable rest
      rw [List.append_assoc] at found
      cases read.symm.trans found
      simp
  | symbol sign =>
      obtain ⟨isSign, noQuote⟩ := sign_of_chars chars
      obtain ⟨symbol, isFound, rfl⟩ := symbol_of_atStart isSign noQuote found
      have bound := length_le_symbol begins isFound
      rw [← String.length_toList, show sign.text.toList = d :: ds from chars] at bound
      exact Nat.le_sub_one_of_lt bound
  | malformed fault => exact written.elim

end Rulebook
