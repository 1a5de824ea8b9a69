import Rulebook.Proofs.Token.Lenient
import Rulebook.Proofs.Token.Spelling

/-!
# Scans of joined lines

Scanning texts that a line feed joins. A line feed ends every piece of a text but strings and
comments between marks that are still open, and the blanks around it. Where the characters behind it
close nothing that is open before it, the scan of the whole text is the scan of the first part
followed by the scan of the second.
-/

namespace Rulebook

open Text (Position)

variable {c : Char} {cs ds : List Char}

/-! ## Runs of characters -/

/-- A stretch that a line feed ends is the same in the first line alone. -/
theorem takeWhile_line {p : Char → Bool} (stops : p '\n' = false) (cs ds : List Char) :
    (cs ++ '\n' :: ds).takeWhile p = cs.takeWhile p := by
  induction cs with
  | nil => simp [stops]
  | cons c cs inductionHypothesis =>
      cases goesOn : p c <;> simp [goesOn, inductionHypothesis]

private theorem dropWhile_line {p : Char → Bool} (stops : p '\n' = false) (cs ds : List Char) :
    (cs ++ '\n' :: ds).dropWhile p = cs.dropWhile p ++ '\n' :: ds := by
  induction cs with
  | nil => simp [stops]
  | cons c cs inductionHypothesis =>
      cases goesOn : p c <;> simp [goesOn, inductionHypothesis]

private theorem continuesName_newline : continuesName '\n' = false :=
  Text.continuesName_eq_false_of_isBlank rfl

theorem isDigit_newline : Text.isDigit '\n' = false :=
  Text.isDigit_eq_false_of_isBlank rfl

private theorem numeral_line (cs ds : List Char) :
    Piece.numeral (cs ++ '\n' :: ds) = Piece.numeral cs := by
  simp only [Piece.numeral, takeWhile_line isDigit_newline, dropWhile_line isDigit_newline]
  cases cs.dropWhile Text.isDigit with
  | nil => rfl
  | cons d behind =>
      by_cases point : d = '.'
      · subst point
        simp only [List.cons_append, takeWhile_line isDigit_newline]
      · simp [point]

/-! ## Symbols -/

theorem mem_signs_of_atStart? {symbol : Symbol}
    (found : Symbol.atStart? (c :: cs) = some symbol) : c ∈ Text.signs := by
  generalize whole : c :: cs = characters at found
  revert found
  fun_cases Symbol.atStart? characters with
  | case23 =>
      intro found
      cases found
  | _ =>
      intro _
      injection whole with isSign
      rw [isSign]
      decide

theorem atStart?_eq_none (outside : c ∉ Text.signs) : Symbol.atStart? (c :: cs) = none := by
  apply Option.eq_none_iff_forall_ne_some.2
  intro symbol found
  exact outside (mem_signs_of_atStart? found)

/-- A symbol has two characters at most. -/
theorem atStart?_pair (c d : Char) (rest : List Char) :
    Symbol.atStart? (c :: d :: rest) = Symbol.atStart? [c, d] := by
  by_cases sign : c ∈ Text.signs
  · simp only [Text.signs, List.mem_cons, List.not_mem_nil, or_false] at sign
    rcases sign with rfl | rfl | rfl | rfl | rfl | rfl | single
    · by_cases same : d = '&' <;> simp [Symbol.atStart?, same]
    · by_cases same : d = '|' <;> simp [Symbol.atStart?, same]
    · by_cases same : d = '=' <;> simp [Symbol.atStart?, same]
    · by_cases same : d = '=' <;> simp [Symbol.atStart?, same]
    · by_cases same : d = '=' <;> simp [Symbol.atStart?, same]
    · by_cases same : d = '=' <;> simp [Symbol.atStart?, same]
    · rcases single with rfl | rfl | rfl | rfl | rfl | rfl | rfl | rfl | rfl | rfl | rfl | rfl | rfl
      all_goals rfl
  · rw [atStart?_eq_none sign, atStart?_eq_none sign]

private theorem atStart?_newline (c : Char) : Symbol.atStart? [c, '\n'] = Symbol.atStart? [c] := by
  by_cases sign : c ∈ Text.signs
  · simp only [Text.signs, List.mem_cons, List.not_mem_nil, or_false] at sign
    rcases sign with rfl | rfl | rfl | rfl | rfl | rfl | rfl | rfl | rfl | rfl | rfl | rfl | rfl |
      rfl | rfl | rfl | rfl | rfl | rfl
    all_goals rfl
  · rw [atStart?_eq_none sign, atStart?_eq_none sign]

private theorem atStart?_line (c : Char) (cs ds : List Char) :
    Symbol.atStart? (c :: (cs ++ '\n' :: ds)) = Symbol.atStart? (c :: cs) := by
  cases cs with
  | nil => rw [List.nil_append, atStart?_pair, atStart?_newline]
  | cons d rest => rw [List.cons_append, atStart?_pair, ← atStart?_pair c d rest]

/-! ## Comments and strings -/

private theorem commentLength?_line
    (staysOpen : Piece.commentLength? cs = none → Piece.commentLength? ds = none) :
    Piece.commentLength? (cs ++ '\n' :: ds) = Piece.commentLength? cs := by
  fun_induction Piece.commentLength? cs with
  | case1 => simp [Piece.commentLength?, staysOpen]
  | case2 => simp [Piece.commentLength?]
  | case3 c cs noMark inductionHypothesis =>
      have staysOpenLater : Piece.commentLength? cs = none → Piece.commentLength? ds = none := by
        intro open_
        exact staysOpen (by rw [open_, Option.map_none])
      have noMarkLater : ∀ rest, c = '*' → cs ++ '\n' :: ds ≠ '/' :: rest := by
        intro rest isStar closes
        cases cs with
        | nil => cases closes
        | cons d others =>
            injection closes with isSlash _
            exact noMark others isStar (by rw [isSlash])
      rw [List.cons_append, Piece.commentLength?, inductionHypothesis staysOpenLater]
      exact noMarkLater

private theorem readQuoted?_line
    (staysOpen : Text.readQuoted? cs = none → Text.readQuoted? ds = none) :
    Text.readQuoted? (cs ++ '\n' :: ds) = Text.readQuoted? cs := by
  fun_induction Text.readQuoted? cs with
  | case1 => simp [Text.readQuoted?, staysOpen]
  | case2 cs inductionHypothesis =>
      have staysOpenLater : Text.readQuoted? cs = none → Text.readQuoted? ds = none := by
        intro open_
        exact staysOpen (by rw [open_, Option.map_none])
      rw [List.cons_append, List.cons_append, Text.readQuoted?, inductionHypothesis staysOpenLater]
  | case3 cs noEscape => simp [Text.readQuoted?]
  | case4 c cs noEscape noQuote inductionHypothesis =>
      have staysOpenLater : Text.readQuoted? cs = none → Text.readQuoted? ds = none := by
        intro open_
        exact staysOpen (by rw [open_, Option.map_none])
      have noEscapeLater : ∀ rest, c = '\\' → cs ++ '\n' :: ds ≠ '"' :: rest := by
        intro rest isBackslash closes
        cases cs with
        | nil => cases closes
        | cons d others =>
            injection closes with isQuote _
            exact noEscape others isBackslash (by rw [isQuote])
      rw [List.cons_append, Text.readQuoted?, if_neg noQuote, inductionHypothesis staysOpenLater]
      exact noEscapeLater

private theorem quotedText?_congr {others : List Char}
    (same : Text.readQuoted? cs = Text.readQuoted? others) :
    Text.quotedText? cs = Text.quotedText? others := by
  unfold Text.quotedText?
  split <;> split <;> simp_all

theorem quotedText?_eq_none_iff : Text.quotedText? cs = none ↔ Text.readQuoted? cs = none := by
  unfold Text.quotedText?
  split <;> simp_all

/-! ## Pieces -/

/-- Whether characters close nothing that a fault leaves open. -/
def LexicalFault.StaysOpen (ds : List Char) : LexicalFault → Prop
  | unexpectedCharacter _ => True
  | openComment => Piece.commentLength? ds = none
  | openString => Text.readQuoted? ds = none

/-- Whether characters close nothing that a scan found open. -/
def Scan.StaysOpen (ds : List Char) (scan : Scan) : Prop :=
  ∀ fault, .malformed fault ∈ scan.tokens.map Token.lexeme → fault.StaysOpen ds

theorem head?_line {d : Char} (different : d ≠ '\n') (cs ds : List Char) :
    (cs ++ '\n' :: ds).head? = some d ↔ cs.head? = some d := by
  cases cs with
  | nil => simp [different.symm]
  | cons _ _ => simp

theorem atStart_comment (rest : List Char) :
    Piece.atStart '/' ('*' :: rest) =
      match Piece.commentLength? rest with
      | some length => .ok (.gap, length + 1)
      | none => .error .openComment := by
  have noBlank : ¬ Text.isBlank '/' = true := by
    decide
  have noLine : ¬ (decide ('/' = '/') && decide (('*' :: rest).head? = some '/')) = true := by
    simp
  have comment : (decide ('/' = '/') && decide (('*' :: rest).head? = some '*')) = true := by
    simp
  exact (if_neg noBlank).trans ((if_neg noLine).trans (if_pos comment))

theorem atStart_quote (cs : List Char) :
    Piece.atStart '"' cs =
      match Text.quotedText? cs with
      | some (text, length) => .ok (.lexeme (.string text), length)
      | none => .error .openString := by
  have outside := Text.sign_in_no_class (c := '"') (by decide)
  have noSlash : ¬ ('"' = '/') := by
    decide
  simp only [Piece.atStart, outside.1, outside.2.1, outside.2.2.1, noSlash, decide_false,
    Bool.false_and, Bool.false_eq_true, if_false]
  exact if_pos trivial

/-- The first piece of a text, blanks apart, is the same whatever stands behind a line feed, unless
this closes something that is open. -/
theorem atStart_line (notBlank : Text.isBlank c = false)
    (staysOpen : ∀ fault, Piece.atStart c cs = .error fault → fault.StaysOpen ds) :
    Piece.atStart c (cs ++ '\n' :: ds) = Piece.atStart c cs := by
  by_cases comment : c = '/' ∧ cs.head? = some '*'
  · obtain ⟨rfl, isStar⟩ := comment
    obtain ⟨rest, rfl⟩ := List.head?_eq_some_iff.1 isStar
    rw [List.cons_append, atStart_comment, atStart_comment, commentLength?_line]
    intro open_
    exact staysOpen .openComment (by rw [atStart_comment, open_])
  · by_cases quote : c = '"'
    · subst quote
      rw [atStart_quote, atStart_quote, quotedText?_congr (readQuoted?_line _)]
      intro open_
      exact staysOpen .openString (by rw [atStart_quote, quotedText?_eq_none_iff.2 open_])
    · have noComment : (decide (c = '/') && decide (cs.head? = some '*')) = false := by
        simpa using comment
      have sameNumeral : Piece.numeral (c :: (cs ++ '\n' :: ds)) = Piece.numeral (c :: cs) :=
        numeral_line (c :: cs) ds
      simp only [Piece.atStart, notBlank, noComment, quote, sameNumeral, atStart?_line,
        head?_line (d := '/') (by decide), head?_line (d := '*') (by decide),
        takeWhile_line (p := (· != '\n')) (by decide), takeWhile_line continuesName_newline,
        Bool.false_eq_true, if_false]

/-! ## Whole texts -/

namespace Scan

/-- A line feed divides what is found before it from what is found behind it. -/
theorem lenientFrom_line {place : Position} (staysOpen : (lenientFrom place cs).StaysOpen ds) :
    lenientFrom place (cs ++ '\n' :: ds) =
      (lenientFrom ((place.afterAll cs).after '\n') ds).prepend (lenientFrom place cs).tokens := by
  -- by the number of characters, piece by piece, but blank by blank: the line feed and the blanks
  -- behind it belong to the same gap as those before it
  induction size : cs.length using Nat.strongRecOn generalizing place cs with
  | ind size inductionHypothesis =>
  subst size
  cases cs with
  | nil =>
      have blank : Text.isBlank '\n' = true := by
        decide
      rw [List.nil_append, lenientFrom_blank blank, lenientFrom_nil]
      rfl
  | cons c cs =>
      rw [List.cons_append]
      cases blank : Text.isBlank c with
      | true =>
          rw [lenientFrom_blank blank] at staysOpen ⊢
          rw [lenientFrom_blank blank]
          exact inductionHypothesis cs.length (Nat.lt_succ_self _) staysOpen rfl
      | false =>
          have same : Piece.atStart c (cs ++ '\n' :: ds) = Piece.atStart c cs := by
            apply atStart_line blank
            intro fault failed
            apply staysOpen fault
            rw [lenientFrom_error failed]
            exact List.mem_cons_self
          cases found : Piece.atStart c cs with
          | error fault =>
              rw [lenientFrom_error found] at staysOpen ⊢
              rw [lenientFrom_error (same.trans found)]
              have later := inductionHypothesis cs.length (Nat.lt_succ_self _)
                (fun other member => staysOpen other (List.mem_cons_of_mem _ member)) rfl
              rw [later, prepend_prepend]
              rfl
          | ok result =>
              obtain ⟨piece, length⟩ := result
              have bound : length ≤ cs.length := (pieceAt_of_atStart found).le
              have fewer : (cs.drop length).length < (c :: cs).length := by
                simp only [List.length_drop, List.length_cons]
                omega
              rw [lenientFrom_ok found] at staysOpen ⊢
              rw [lenientFrom_ok (same.trans found), List.take_append_of_le_length bound,
                List.drop_append_of_le_length bound]
              have staysOpenLater : (lenientFrom (place.afterAll (c :: cs.take length))
                  (cs.drop length)).StaysOpen ds := by
                intro other member
                apply staysOpen other
                rw [lexemes_prepend]
                exact List.mem_append_right _ member
              have sameEnd : (place.afterAll (c :: cs.take length)).afterAll (cs.drop length) =
                  place.afterAll (c :: cs) := by
                rw [← Position.afterAll_append, List.cons_append, List.take_append_drop]
              rw [inductionHypothesis _ fewer staysOpenLater rfl, prepend_prepend, sameEnd]
              rfl

end Scan

end Rulebook
