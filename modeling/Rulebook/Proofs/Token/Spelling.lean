import Rulebook.Proofs.Text.CharacterClass

/-!
# Spelling of lexemes

How lexemes are written, and that the scanner reads a written lexeme as that lexeme where the
characters behind it cannot belong to it. `Scan.Reads` says which lexemes a text consists of,
whatever the place at which the text begins.
-/

namespace Rulebook

open Text (Quotable Position)

/-! ## Written lexemes -/

/-- A name of the rule language: it begins with a letter or a line, goes on with letters, numerals
and lines, and is no keyword. -/
def IsName (text : String) : Prop :=
  ∃ c cs, text.toList = c :: cs ∧ startsName c = true ∧ (∀ d ∈ cs, continuesName d = true) ∧
    Keyword.ofText? text = none

/-- A numeral has digits, and digits behind its point if it has one. -/
structure Numeral.WellFormed (numeral : Numeral) : Prop where
  whole_ne_nil : numeral.whole ≠ []
  whole_digits : ∀ c ∈ numeral.whole, Text.isDigit c = true
  fraction_ne_nil : ∀ fraction ∈ numeral.fraction, fraction ≠ []
  fraction_digits : ∀ fraction ∈ numeral.fraction, ∀ c ∈ fraction, Text.isDigit c = true

namespace Lexeme

def chars : Lexeme → List Char
  | name text => text.toList
  | keyword word => word.text.toList
  | number numeral => numeral.chars
  | string quotable => quotable.written.toList
  | symbol sign => sign.text.toList
  | malformed _ => []

/-- Whether a lexeme has a written form. -/
def IsWritten : Lexeme → Prop
  | name text => IsName text
  | number numeral => numeral.WellFormed
  | malformed _ => False
  | _ => True

/-- Whether a lexeme ends where certain characters begin: they do not make it longer. -/
def EndsBefore (rest : List Char) : Lexeme → Prop
  | name _ | keyword _ => ∀ c ∈ rest.head?, continuesName c = false
  | number numeral =>
    (∀ c ∈ rest.head?, Text.isDigit c = false) ∧
      (numeral.fraction = none → rest.head? = some '.' →
        ∀ d ∈ rest.tail.head?, Text.isDigit d = false)
  | symbol .less | symbol .greater | symbol .assign | symbol .not => rest.head? ≠ some '='
  | symbol .divide => rest.head? ≠ some '/' ∧ rest.head? ≠ some '*'
  | _ => True

end Lexeme

theorem takeWhile_append_of_head {α : Type} {p : α → Bool} {items rest : List α}
    (all : ∀ item ∈ items, p item = true) (stop : ∀ item ∈ rest.head?, p item = false) :
    (items ++ rest).takeWhile p = items := by
  have ended : rest.takeWhile p = [] := by
    cases rest with
    | nil => rfl
    | cons first others => simp [stop first (by simp)]
  rw [List.takeWhile_append_of_pos all, ended, List.append_nil]

theorem dropWhile_append_of_head {α : Type} {p : α → Bool} {items rest : List α}
    (all : ∀ item ∈ items, p item = true) (stop : ∀ item ∈ rest.head?, p item = false) :
    (items ++ rest).dropWhile p = rest := by
  rw [List.dropWhile_append_of_pos all]
  cases rest with
  | nil => rfl
  | cons first others => simp [stop first (by simp)]

/-! ## Words -/

theorem atStart_word {c : Char} {cs rest : List Char} (start : startsName c = true)
    (continued : ∀ d ∈ cs, continuesName d = true)
    (ends : ∀ d ∈ rest.head?, continuesName d = false) :
    Piece.atStart c (cs ++ rest) =
      .ok (.lexeme (Piece.word (String.ofList (c :: cs))), cs.length) := by
  have notBlank : Text.isBlank c = false := Text.isBlank_eq_false_of_startsName start
  have notSlash : c ≠ '/' := by
    rintro rfl
    exact Text.not_mem_signs_of_startsName start (by decide)
  have taken : (cs ++ rest).takeWhile continuesName = cs :=
    takeWhile_append_of_head continued ends
  simp [Piece.atStart, notBlank, notSlash, start, taken]

private theorem word_of_isName {text : String} (plain : Keyword.ofText? text = none) :
    Piece.word text = .name text := by
  simp only [Piece.word, plain]

private theorem word_keyword (keyword : Keyword) : Piece.word keyword.text = .keyword keyword := by
  simp only [Piece.word, Keyword.ofText?_text]

theorem keyword_chars (keyword : Keyword) :
    ∃ c cs, keyword.text.toList = c :: cs ∧ startsName c = true ∧
      ∀ d ∈ cs, continuesName d = true := by
  cases keyword <;>
    exact ⟨_, _, rfl, by decide, List.all_eq_true.1 (by decide)⟩

/-! ## Numbers -/

theorem numeral_chars {numeral : Numeral} {rest : List Char} (written : numeral.WellFormed)
    (ends : Lexeme.EndsBefore rest (.number numeral)) :
    Piece.numeral (numeral.chars ++ rest) = numeral := by
  obtain ⟨whole, fraction⟩ := numeral
  obtain ⟨notDigit, notPoint⟩ := ends
  cases fraction with
  | none =>
      have taken := takeWhile_append_of_head written.whole_digits notDigit
      have left := dropWhile_append_of_head written.whole_digits notDigit
      simp only at taken left
      simp only [Numeral.chars, Piece.numeral, taken, left]
      split
      · next behind =>
          have noFraction : behind.takeWhile Text.isDigit = [] := by
            cases behind with
            | nil => rfl
            | cons d ds => simp [notPoint rfl rfl d rfl]
          simp [noFraction]
      · rfl
  | some fraction =>
      have pointEnds :
          ∀ c ∈ ('.' :: (fraction ++ rest)).head?, Text.isDigit c = false := by
        rintro c ⟨⟩
        decide
      have takenWhole := takeWhile_append_of_head written.whole_digits pointEnds
      have leftWhole := dropWhile_append_of_head written.whole_digits pointEnds
      have taken :=
        takeWhile_append_of_head (written.fraction_digits fraction rfl) notDigit
      have notEmpty : fraction ≠ [] := written.fraction_ne_nil fraction rfl
      simp only at takenWhole leftWhole
      simp [Numeral.chars, Piece.numeral, takenWhole, leftWhole, taken, notEmpty]

theorem isDigit_of_chars {numeral : Numeral} {c : Char} {cs : List Char}
    (written : numeral.WellFormed) (chars : numeral.chars = c :: cs) : Text.isDigit c = true := by
  have first : numeral.whole.head? = some c := by
    have head := congrArg List.head? chars
    unfold Numeral.chars at head
    cases fractionCase : numeral.fraction with
    | none => simpa [fractionCase] using head
    | some fraction =>
        cases wholeCase : numeral.whole with
        | nil => exact absurd wholeCase written.whole_ne_nil
        | cons d ds => simpa [fractionCase, wholeCase] using head
  exact written.whole_digits c (List.mem_of_head? first)

private theorem atStart_number {numeral : Numeral} {c : Char} {cs rest : List Char}
    (written : numeral.WellFormed) (ends : Lexeme.EndsBefore rest (.number numeral))
    (chars : numeral.chars = c :: cs) :
    Piece.atStart c (cs ++ rest) = .ok (.lexeme (.number numeral), cs.length) := by
  have digit : Text.isDigit c = true := isDigit_of_chars written chars
  have notBlank : Text.isBlank c = false := Text.isBlank_eq_false_of_isDigit digit
  have notName : startsName c = false := Text.startsName_eq_false_of_isDigit digit
  have notSlash : c ≠ '/' := by
    rintro rfl
    exact Text.not_mem_signs_of_isDigit digit (by decide)
  have read : Piece.numeral (c :: (cs ++ rest)) = numeral := by
    rw [← List.cons_append, ← chars]
    exact numeral_chars written ends
  simp [Piece.atStart, notBlank, notName, notSlash, digit, read, chars]

/-! ## Quoted texts -/

private theorem escape_head_ne_quote (cs rest : List Char) (nonempty : cs ≠ []) :
    (Quotable.escape cs ++ rest).head? ≠ some '"' := by
  cases cs with
  | nil => exact absurd rfl nonempty
  | cons d ds =>
      by_cases quote : d = '"' <;> simp [Quotable.escape, quote]

/-- What is read behind an opening quote is the text whose escaped form stands there. -/
theorem readQuoted?_escape {cs : List Char} (rest : List Char)
    (closes : cs.getLast? ≠ some '\\') :
    Text.readQuoted? (Quotable.escape cs ++ '"' :: rest) =
      some (cs, (Quotable.escape cs).length + 1) := by
  induction cs with
  | nil => simp [Quotable.escape, Text.readQuoted?]
  | cons c cs inductionHypothesis =>
      have closesLater : cs.getLast? ≠ some '\\' := by
        cases cs with
        | nil => simp
        | cons d ds => rwa [List.getLast?_cons_cons] at closes
      have read := inductionHypothesis closesLater
      by_cases quote : c = '"'
      · simp [Quotable.escape, quote, Text.readQuoted?, read]
      · have noEscape :
            ∀ ds, c :: (Quotable.escape cs ++ '"' :: rest) ≠ '\\' :: '"' :: ds := by
          intro ds same
          injection same with isBackslash quoteFollows
          cases cs with
          | nil => exact closes (by simp [isBackslash])
          | cons d ds =>
              exact escape_head_ne_quote (d :: ds) ('"' :: rest) (by simp)
                (by rw [quoteFollows]; rfl)
        simp only [Quotable.escape, quote, if_false, List.cons_append]
        rw [Text.readQuoted?.eq_def]
        split
        · next same => simp at same
        · next ds same => exact absurd same (noEscape ds)
        · next d ds _ same =>
            injection same with sameHead sameTail
            subst sameHead sameTail
            simp [quote, read]

/-- A string in its quotes is read back. -/
theorem atStart_string (quotable : Quotable) (rest : List Char) :
    Piece.atStart '"' (Quotable.escape quotable.text.toList ++ '"' :: rest) =
      .ok (.lexeme (.string quotable), (Quotable.escape quotable.text.toList).length + 1) := by
  have outside := Text.sign_in_no_class (c := '"') (by decide)
  have read : Text.quotedText? (Quotable.escape quotable.text.toList ++ '"' :: rest) =
      some (quotable, (Quotable.escape quotable.text.toList).length + 1) := by
    have closed := readQuoted?_escape rest quotable.closes
    unfold Text.quotedText?
    split
    · next open_ => rw [closed] at open_; exact absurd open_ (by simp)
    · next text length found =>
        rw [closed] at found
        simp only [Option.some.injEq, Prod.mk.injEq] at found
        obtain ⟨rfl, rfl⟩ := found
        simp
  simp [Piece.atStart, outside.1, outside.2.1, outside.2.2.1, read]

/-! ## Symbols -/

/-- A symbol that an equals sign would make another one. -/
theorem atStart?_of_no_equals {c : Char} {symbol : Symbol} {rest : List Char}
    (alone : Symbol.atStart? [c] = some symbol) (extended : c ∈ ['<', '>', '=', '!'])
    (ends : rest.head? ≠ some '=') : Symbol.atStart? (c :: rest) = some symbol := by
  cases rest with
  | nil => exact alone
  | cons d ds =>
      have different : d ≠ '=' := fun same => ends (by simp [same])
      simp only [List.mem_cons, List.not_mem_nil, or_false] at extended
      rcases extended with rfl | rfl | rfl | rfl <;>
        simpa [Symbol.atStart?, different] using alone

theorem sign_of_chars {symbol : Symbol} {c : Char} {cs : List Char}
    (chars : symbol.text.toList = c :: cs) : c ∈ Text.signs ∧ c ≠ '"' := by
  cases symbol <;> cases chars <;> decide

private theorem atStart_symbol {symbol : Symbol} {c : Char} {cs rest : List Char}
    (ends : Lexeme.EndsBefore rest (.symbol symbol)) (chars : symbol.text.toList = c :: cs) :
    Piece.atStart c (cs ++ rest) = .ok (.lexeme (.symbol symbol), cs.length) := by
  obtain ⟨sign, noQuote⟩ := sign_of_chars chars
  have outside := Text.sign_in_no_class sign
  have noLineComment : (decide (c = '/') && decide ((cs ++ rest).head? = some '/')) = false := by
    rw [Bool.eq_false_iff, ne_eq, Bool.and_eq_true, decide_eq_true_eq, decide_eq_true_eq]
    rintro ⟨rfl, follows⟩
    cases symbol <;> cases chars
    exact ends.1 follows
  have noComment : (decide (c = '/') && decide ((cs ++ rest).head? = some '*')) = false := by
    rw [Bool.eq_false_iff, ne_eq, Bool.and_eq_true, decide_eq_true_eq, decide_eq_true_eq]
    rintro ⟨rfl, follows⟩
    cases symbol <;> cases chars
    exact ends.2 follows
  have found : Symbol.atStart? (c :: (cs ++ rest)) = some symbol := by
    cases symbol with
    | less | greater | assign | not =>
        cases chars
        exact atStart?_of_no_equals rfl (by decide) ends
    | _ =>
        cases chars
        rfl
  have length : symbol.text.length - 1 = cs.length := by
    rw [← String.length_toList, chars, List.length_cons, Nat.add_sub_cancel]
  simp only [Piece.atStart, outside.1, outside.2.1, outside.2.2.1, noQuote, noLineComment,
    noComment, found, length, Bool.false_eq_true, if_false]

/-! ## Reading a written lexeme -/

/-- A written lexeme at the start of a text is the first piece of the text. -/
theorem atStart_chars {lexeme : Lexeme} {c : Char} {cs rest : List Char}
    (written : lexeme.IsWritten) (ends : lexeme.EndsBefore rest)
    (chars : lexeme.chars = c :: cs) :
    Piece.atStart c (cs ++ rest) = .ok (.lexeme lexeme, cs.length) := by
  cases lexeme with
  | name text =>
      obtain ⟨d, ds, spelled, start, continued, plain⟩ := written
      obtain ⟨rfl, rfl⟩ : d = c ∧ ds = cs := by
        simpa using spelled.symm.trans chars
      rw [atStart_word start continued ends, ← spelled, String.ofList_toList,
        word_of_isName plain]
  | keyword word =>
      obtain ⟨d, ds, spelled, start, continued⟩ := keyword_chars word
      obtain ⟨rfl, rfl⟩ : d = c ∧ ds = cs := by
        simpa using spelled.symm.trans chars
      rw [atStart_word start continued ends, ← spelled, String.ofList_toList, word_keyword]
  | number numeral => exact atStart_number written ends chars
  | string quotable =>
      have spelled : '"' :: (Quotable.escape quotable.text.toList ++ ['"']) = c :: cs := by
        simpa [Lexeme.chars, Quotable.written] using chars
      injection spelled with head tail
      subst head tail
      simpa using atStart_string quotable rest
  | symbol sign => exact atStart_symbol ends chars
  | malformed fault => exact written.elim

theorem isBlank_space : Text.isBlank ' ' = true := by
  decide

/-- Every lexeme ends where a space follows. -/
theorem endsBefore_space (lexeme : Lexeme) (rest : List Char) :
    lexeme.EndsBefore (' ' :: rest) := by
  have noName : ∀ c ∈ (' ' :: rest).head?, continuesName c = false := by
    rintro c ⟨⟩
    exact Text.continuesName_eq_false_of_isBlank isBlank_space
  have noDigit : ∀ c ∈ (' ' :: rest).head?, Text.isDigit c = false := by
    rintro c ⟨⟩
    exact Text.isDigit_eq_false_of_isBlank isBlank_space
  cases lexeme with
  | name text | keyword word => exact noName
  | number numeral => exact ⟨noDigit, by simp⟩
  | symbol sign => cases sign <;> simp [Lexeme.EndsBefore]
  | string quotable | malformed fault => trivial

theorem chars_ne_nil {lexeme : Lexeme} (written : lexeme.IsWritten) : lexeme.chars ≠ [] := by
  cases lexeme with
  | name text =>
      obtain ⟨c, cs, spelled, _⟩ := written
      simp [Lexeme.chars, spelled]
  | keyword word =>
      obtain ⟨c, cs, spelled, _⟩ := keyword_chars word
      simp [Lexeme.chars, spelled]
  | number numeral =>
      have nonempty := written.whole_ne_nil
      cases fractionCase : numeral.fraction <;>
        simp [Lexeme.chars, Numeral.chars, fractionCase, nonempty]
  | string quotable => simp [Lexeme.chars, Quotable.written]
  | symbol sign => cases sign <;> exact List.cons_ne_nil _ _
  | malformed fault => exact written.elim

/-- A lexeme that ends where its characters do is the next token. -/
theorem strictFrom_chars {lexeme : Lexeme} {rest : List Char} (place : Position)
    (written : lexeme.IsWritten) (ends : lexeme.EndsBefore rest) :
    Scan.strictFrom place (lexeme.chars ++ rest) =
      (Scan.strictFrom (place.afterAll lexeme.chars) rest).map
        (Scan.prepend [⟨lexeme, place⟩]) := by
  cases chars : lexeme.chars with
  | nil => exact absurd chars (chars_ne_nil written)
  | cons c cs =>
      rw [List.cons_append, Scan.strictFrom, atStart_chars written ends chars]
      simp [Piece.tokens]

private theorem strictFrom_blank {c : Char} (place : Position) (rest : List Char)
    (blank : Text.isBlank c = true) :
    Scan.strictFrom place (c :: rest) = Scan.strictFrom (place.after c) rest := by
  have gap (c : Char) (cs : List Char) (blank : Text.isBlank c = true) :
      Piece.atStart c cs = .ok (.gap, (cs.takeWhile Text.isBlank).length) := by
    simp only [Piece.atStart, blank, if_true]
  have unprepended (result : Except Scan.Fault Scan) :
      result.map (Scan.prepend []) = result := by
    cases result <;> rfl
  rw [Scan.strictFrom, gap c rest blank]
  simp only [Piece.tokens, unprepended]
  cases rest with
  | nil => simp
  | cons d ds =>
      by_cases blankNext : Text.isBlank d = true
      · rw [Scan.strictFrom, gap d ds blankNext]
        simp [Piece.tokens, unprepended, blankNext]
      · simp [blankNext]

/-! ## Texts and the lexemes that they consist of -/

namespace Scan

/-- Whether a text consists of certain lexemes, wherever the text begins. -/
def Reads (cs : List Char) (lexemes : List Lexeme) : Prop :=
  ∀ place, ∃ scan, strictFrom place cs = .ok scan ∧ scan.tokens.map Token.lexeme = lexemes

theorem reads_nil : Reads [] [] := by
  intro place
  exact ⟨⟨[], place⟩, by rw [strictFrom], rfl⟩

theorem reads_blank {c : Char} {cs : List Char} {lexemes : List Lexeme}
    (blank : Text.isBlank c = true) (read : Reads cs lexemes) : Reads (c :: cs) lexemes := by
  intro place
  rw [strictFrom_blank place cs blank]
  exact read (place.after c)

theorem reads_blanks {blanks cs : List Char} {lexemes : List Lexeme}
    (blank : ∀ c ∈ blanks, Text.isBlank c = true) (read : Reads cs lexemes) :
    Reads (blanks ++ cs) lexemes := by
  induction blanks with
  | nil => exact read
  | cons c others inductionHypothesis =>
      have blankOthers : ∀ d ∈ others, Text.isBlank d = true := fun d member =>
        blank d (List.mem_cons_of_mem c member)
      exact reads_blank (blank c List.mem_cons_self) (inductionHypothesis blankOthers)

theorem reads_chars {lexeme : Lexeme} {cs : List Char} {lexemes : List Lexeme}
    (written : lexeme.IsWritten) (ends : lexeme.EndsBefore cs) (read : Reads cs lexemes) :
    Reads (lexeme.chars ++ cs) (lexeme :: lexemes) := by
  intro place
  obtain ⟨scan, scanned, found⟩ := read (place.afterAll lexeme.chars)
  refine ⟨scan.prepend [⟨lexeme, place⟩], ?_, ?_⟩
  · rw [strictFrom_chars place written ends, scanned]
    rfl
  · simp [prepend, found]

/-- The text of lexemes with a space behind each. -/
def spaced (lexemes : List Lexeme) : List Char :=
  lexemes.flatMap fun lexeme => lexeme.chars ++ [' ']

private theorem reads_spaced {lexemes : List Lexeme} (written : ∀ lexeme ∈ lexemes, lexeme.IsWritten) :
    Reads (spaced lexemes) lexemes := by
  induction lexemes with
  | nil => exact reads_nil
  | cons lexeme others inductionHypothesis =>
      have readOthers := inductionHypothesis fun other member =>
        written other (List.mem_cons_of_mem lexeme member)
      have read := reads_chars (written lexeme List.mem_cons_self) (endsBefore_space lexeme _)
        (reads_blank isBlank_space readOthers)
      simpa [spaced] using read

/-- Any lexemes that can be written make up a text. -/
theorem exists_strict_eq_ok {lexemes : List Lexeme}
    (written : ∀ lexeme ∈ lexemes, lexeme.IsWritten) :
    ∃ text scan, strict text = .ok scan ∧ scan.tokens.map Token.lexeme = lexemes := by
  obtain ⟨scan, scanned, found⟩ := reads_spaced written Position.start
  refine ⟨String.ofList (spaced lexemes), scan, ?_, found⟩
  rw [strict, String.toList_ofList, scanned]

end Scan

end Rulebook
