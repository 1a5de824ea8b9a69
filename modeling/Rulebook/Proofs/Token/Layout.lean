import Mathlib.Data.List.Induction
import Rulebook.Proofs.Token.Lenient
import Rulebook.Proofs.Token.Longest

/-!
# Layout of a text

What a text without lexical faults consists of: lexemes, each at the place that its token tells and
none shorter than it could be, and between them blanks and comments.
-/

namespace Rulebook

open Text (Position)

/-! ## Gaps -/

/-- `IsGap rest gap` means that characters in front of the rest of a text are blanks, comments that
end with their line and comments that end with the first mark that closes them. -/
inductive IsGap (rest : List Char) : List Char → Prop
  | nil : IsGap rest []
  | blank {c : Char} {gap : List Char} :
      Text.isBlank c = true →
      IsGap rest gap →
      IsGap rest (c :: gap)
  | lineComment {words gap : List Char} :
      '\n' ∉ words →
      (∀ c ∈ (gap ++ rest).head?, c = '\n') →
      IsGap rest gap →
      IsGap rest ('/' :: '/' :: (words ++ gap))
  | comment {words gap : List Char} :
      ¬ ['*', '/'] <:+: words ++ ['*'] →
      IsGap rest gap →
      IsGap rest ('/' :: '*' :: (words ++ '*' :: '/' :: gap))

namespace IsGap

variable {rest gap others : List Char}

theorem append (isGap : IsGap (others ++ rest) gap) (isGapLater : IsGap rest others) :
    IsGap rest (gap ++ others) := by
  induction isGap with
  | nil => exact isGapLater
  | blank blank _ inductionHypothesis => exact .blank blank inductionHypothesis
  | lineComment inLine ends _ inductionHypothesis =>
      rw [List.cons_append, List.cons_append, List.append_assoc]
      rw [← List.append_assoc] at ends
      exact .lineComment inLine ends inductionHypothesis
  | comment noMark _ inductionHypothesis =>
      rw [List.cons_append, List.cons_append, List.append_assoc]
      exact .comment noMark inductionHypothesis

theorem of_blanks (blanks : ∀ c ∈ gap, Text.isBlank c = true) : IsGap rest gap := by
  induction gap with
  | nil => exact .nil
  | cons c gap inductionHypothesis =>
      exact .blank (blanks c List.mem_cons_self)
        (inductionHypothesis fun d member => blanks d (List.mem_cons_of_mem c member))

end IsGap

/-- A comment ends with the first mark that closes it. -/
theorem exists_words_of_commentLength? {cs : List Char} {length : Nat}
    (closed : Piece.commentLength? cs = some length) :
    ∃ words, cs.take length = words ++ ['*', '/'] ∧ ¬ ['*', '/'] <:+: words ++ ['*'] := by
  fun_induction Piece.commentLength? cs generalizing length with
  | case1 => cases closed
  | case2 rest =>
      cases closed
      exact ⟨[], rfl, by decide⟩
  | case3 c cs notMark inductionHypothesis =>
      obtain ⟨inner, isClosed, rfl⟩ := Option.map_eq_some_iff.1 closed
      obtain ⟨words, taken, noMark⟩ := inductionHypothesis isClosed
      refine ⟨c :: words, congrArg (c :: ·) taken, ?_⟩
      rw [List.cons_append, List.infix_cons_iff]
      rintro (begins | later)
      · obtain ⟨isStar, beginsLater⟩ := List.cons_prefix_cons.1 begins
        cases words with
        | nil => simp at beginsLater
        | cons d words =>
            obtain ⟨rfl, _⟩ := List.cons_prefix_cons.1 beginsLater
            cases cs with
            | nil => simp at taken
            | cons e others =>
                cases inner with
                | zero => simp at taken
                | succ inner =>
                    injection taken with isSlash _
                    exact notMark others isStar.symm (by rw [isSlash])
      · exact noMark later

theorem take_length_takeWhile (p : Char → Bool) (cs : List Char) :
    cs.take (cs.takeWhile p).length = cs.takeWhile p :=
  (List.prefix_iff_eq_take.1 (List.takeWhile_prefix p)).symm

theorem drop_length_takeWhile (p : Char → Bool) (cs : List Char) :
    cs.drop (cs.takeWhile p).length = cs.dropWhile p := by
  calc cs.drop (cs.takeWhile p).length
      = (cs.takeWhile p ++ cs.dropWhile p).drop (cs.takeWhile p).length := by
        rw [List.takeWhile_append_dropWhile]
    _ = cs.dropWhile p := List.drop_left

/-- A piece that is no lexeme is a gap. -/
theorem PieceAt.isGap {c : Char} {cs : List Char} {length : Nat}
    (pieceAt : PieceAt c cs .gap length) : IsGap (cs.drop length) (c :: cs.take length) := by
  cases pieceAt with
  | blanks blank =>
      rw [take_length_takeWhile]
      exact .blank blank (.of_blanks fun _ => List.mem_takeWhile_imp)
  | lineComment isSlash slashFollows =>
      obtain ⟨others, rfl⟩ := List.head?_eq_some_iff.1 slashFollows
      subst isSlash
      have words : ('/' :: others).takeWhile (· != '\n') = '/' :: others.takeWhile (· != '\n') :=
        rfl
      have behind : ('/' :: others).dropWhile (· != '\n') = others.dropWhile (· != '\n') := rfl
      have inLine : '\n' ∉ others.takeWhile (· != '\n') := by
        intro member
        simpa using List.mem_takeWhile_imp member
      have ends : ∀ c ∈ (others.dropWhile (· != '\n')).head?, c = '\n' := by
        intro c isHead
        have stopped := List.head?_dropWhile_not (· != '\n') others
        rw [Option.mem_def.1 isHead] at stopped
        simpa using stopped
      rw [take_length_takeWhile, drop_length_takeWhile, words, behind]
      simpa using IsGap.lineComment inLine ends .nil
  | comment isSlash starFollows closed =>
      obtain ⟨others, rfl⟩ := List.head?_eq_some_iff.1 starFollows
      subst isSlash
      obtain ⟨words, taken, noMark⟩ := exists_words_of_commentLength? closed
      rw [List.tail_cons] at taken
      rw [List.take_succ_cons, taken]
      exact .comment noMark .nil

/-! ## Lexemes and gaps in turn -/

/-- `Layout place cs scan` means that a text that begins at a place has the lexemes of a scan at their
places, none of them shorter than it could be, with gaps in front of them and at the end. -/
inductive Layout : Position → List Char → Scan → Prop
  | finish {place : Position} {gap : List Char} :
      IsGap [] gap →
      Layout place gap ⟨[], place.afterAll gap⟩
  | lexeme {place : Position} {gap rest : List Char} {lexeme : Lexeme} {scan : Scan} :
      IsGap (lexeme.chars ++ rest) gap →
      lexeme.IsWritten →
      (∀ other : Lexeme, other.IsWritten → other.chars <+: lexeme.chars ++ rest →
        other.chars.length ≤ lexeme.chars.length) →
      Layout ((place.afterAll gap).afterAll lexeme.chars) rest scan →
      Layout place (gap ++ (lexeme.chars ++ rest))
        (scan.prepend [⟨lexeme, place.afterAll gap⟩])

namespace Layout

variable {place : Position} {cs : List Char} {scan : Scan}

theorem behindGap {gap : List Char} (isGap : IsGap cs gap)
    (layout : Layout (place.afterAll gap) cs scan) : Layout place (gap ++ cs) scan := by
  cases layout with
  | finish isGapLater =>
      rw [← Position.afterAll_append]
      rw [← List.append_nil cs] at isGap
      exact .finish (isGap.append isGapLater)
  | @lexeme _ gapLater rest lexeme scan isGapLater written longest layout =>
      rw [← Position.afterAll_append place gap gapLater] at layout
      rw [← List.append_assoc, ← Position.afterAll_append]
      exact .lexeme (isGap.append isGapLater) written longest layout

/-- A text that is scanned strictly is laid out by its tokens and the gaps between them. -/
theorem of_strictFrom (scanned : Scan.strictFrom place cs = .ok scan) : Layout place cs scan := by
  fun_induction Scan.strictFrom place cs generalizing scan with
  | case1 place =>
      cases scanned
      exact .finish .nil
  | case2 place c cs cause failed => cases scanned
  | case3 place c cs piece length found inductionHypothesis =>
      obtain ⟨later, scannedLater, rfl⟩ := exists_of_map_eq_ok scanned
      have layout := inductionHypothesis scannedLater
      have whole : c :: cs = (c :: cs.take length) ++ cs.drop length := by
        rw [List.cons_append, List.take_append_drop]
      rw [whole]
      cases piece with
      | gap => exact layout.behindGap (pieceAt_of_atStart found).isGap
      | lexeme lexeme =>
          have bound : length ≤ cs.length := (pieceAt_of_atStart found).le
          obtain ⟨written, chars⟩ := (pieceAt_of_atStart found).written
          rw [← chars] at layout ⊢
          refine @Layout.lexeme _ [] _ _ _ .nil written ?_ layout
          intro other otherWritten begins
          rw [chars, ← whole] at begins
          have longest := length_le_of_atStart found otherWritten begins
          rw [chars, List.length_cons, List.length_take_of_le bound]
          exact longest

theorem finish_eq (layout : Layout place cs scan) : scan.finish = place.afterAll cs := by
  induction layout with
  | finish _ => rfl
  | lexeme _ _ _ _ inductionHypothesis =>
      rw [Scan.prepend, inductionHypothesis, Position.afterAll_append, Position.afterAll_append]

end Layout

/-! ## Places in a text -/

/-- Whether a place in a text has the line and the column that belong to its offset: the lines are
counted by the line feeds in front of it, the columns by the characters behind the last of them. -/
structure Text.Position.IsIn (text : List Char) (place : Position) : Prop where
  inside : place.offset ≤ text.length
  line : place.line = 1 + (text.take place.offset).count '\n'
  column : place.column =
    1 + ((text.take place.offset).reverse.takeWhile (· != '\n')).length

/-- The offset counts the characters. -/
theorem offset_afterAll_start (cs : List Char) :
    (Position.start.afterAll cs).offset = cs.length := by
  rw [Position.offset_afterAll]
  exact Nat.zero_add _

/-- The line counts the line feeds, from one on. -/
theorem line_afterAll_start (cs : List Char) :
    (Position.start.afterAll cs).line = 1 + cs.count '\n' := by
  induction cs using List.reverseRecOn with
  | nil => rfl
  | append_singleton cs c inductionHypothesis =>
      rw [Position.afterAll_append, List.count_append, ← Nat.add_assoc, ← inductionHypothesis]
      by_cases newline : c = '\n' <;> simp [Position.after, newline]

/-- The column counts the characters behind the last line feed, from one on. -/
theorem column_afterAll_start (cs : List Char) :
    (Position.start.afterAll cs).column = 1 + (cs.reverse.takeWhile (· != '\n')).length := by
  induction cs using List.reverseRecOn with
  | nil => rfl
  | append_singleton cs c inductionHypothesis =>
      rw [Position.afterAll_append, List.reverse_concat]
      by_cases newline : c = '\n'
      · simp [Position.after, newline]
      · simp [Position.after, newline, inductionHypothesis, Nat.add_assoc]

theorem isIn_afterAll_start (before behind : List Char) :
    (Position.start.afterAll before).IsIn (before ++ behind) := by
  have taken : (before ++ behind).take (Position.start.afterAll before).offset = before := by
    rw [offset_afterAll_start, List.take_left]
  refine ⟨?_, ?_, ?_⟩
  · rw [offset_afterAll_start, List.length_append]
    exact Nat.le_add_right _ _
  · rw [taken, line_afterAll_start]
  · rw [taken, column_afterAll_start]

/-! ## Scans that cover a text -/

def Lexeme.spelling : Lexeme → String
  | .string quotable => quotable.written
  | lexeme => lexeme.text

private theorem spelling_of_isWritten {lexeme : Lexeme} (written : lexeme.IsWritten) :
    lexeme.spelling.toList = lexeme.chars := by
  cases lexeme with
  | number numeral => exact String.toList_ofList
  | malformed fault => exact written.elim
  | _ => rfl

def Token.stop (token : Token) : Nat :=
  token.place.offset + token.lexeme.chars.length

/-- Whether a token stands in a text: its lexeme is one of the grammar, the text has at its place what
it says, between quotes if it is a string, and no lexeme of the grammar that stands there is longer. -/
structure Token.StandsIn (text : List Char) (token : Token) : Prop where
  written : token.lexeme.IsWritten
  spelled : token.lexeme.spelling.toList = token.lexeme.chars
  occurs : token.lexeme.chars <+: text.drop token.place.offset
  longest : ∀ other : Lexeme, other.IsWritten → other.chars <+: text.drop token.place.offset →
    other.chars.length ≤ token.lexeme.chars.length
  isIn : token.place.IsIn text

/-- Whether the stretch of a text between two offsets is a gap. -/
def IsGapBetween (text : List Char) (start stop : Nat) : Prop :=
  start ≤ stop ∧ IsGap (text.drop stop) ((text.take stop).drop start)

theorem isGapBetween_append {before gap behind : List Char} (isGap : IsGap behind gap) :
    IsGapBetween (before ++ (gap ++ behind)) before.length (before ++ gap).length := by
  rw [IsGapBetween, ← List.append_assoc, List.drop_left, List.take_left, List.drop_left]
  refine ⟨?_, isGap⟩
  rw [List.length_append]
  exact Nat.le_add_right _ _

namespace Scan

/-- The stretches that tokens leave between two offsets, each by its two ends. -/
def stretches (start finish : Nat) : List Token → List (Nat × Nat)
  | [] => [(start, finish)]
  | token :: tokens => (start, token.place.offset) :: stretches token.stop finish tokens

/-- Whether a scan tells all of a text: its tokens stand in the text one behind the other, what they
leave are gaps, and it ends where the text does. -/
structure Covers (text : List Char) (scan : Scan) : Prop where
  standsIn : ∀ token ∈ scan.tokens, token.StandsIn text
  inOrder : scan.tokens.Pairwise fun token later => token.stop ≤ later.place.offset
  gaps : ∀ stretch ∈ stretches 0 text.length scan.tokens,
    IsGapBetween text stretch.1 stretch.2
  finish_offset : scan.finish.offset = text.length
  finish_isIn : scan.finish.IsIn text

end Scan

namespace Layout

variable {place : Position} {before cs : List Char} {scan : Scan}

theorem afterAll_gap_chars (before gap chars : List Char) :
    Position.start.afterAll (before ++ gap ++ chars) =
      ((Position.start.afterAll before).afterAll gap).afterAll chars := by
  rw [Position.afterAll_append, Position.afterAll_append]

theorem standsIn (layout : Layout (Position.start.afterAll before) cs scan) :
    ∀ token ∈ scan.tokens, token.StandsIn (before ++ cs) := by
  generalize begins : Position.start.afterAll before = place at layout
  induction layout generalizing before with
  | finish _ => exact fun _ member => by cases member
  | @lexeme place gap rest lexeme scan isGap written longest layout inductionHypothesis =>
      subst begins
      intro token member
      have whole : before ++ (gap ++ (lexeme.chars ++ rest)) =
          (before ++ gap) ++ (lexeme.chars ++ rest) := (List.append_assoc _ _ _).symm
      rcases List.mem_cons.1 member with rfl | later
      · rw [← Position.afterAll_append, whole]
        have dropped : ((before ++ gap) ++ (lexeme.chars ++ rest)).drop
            (Position.start.afterAll (before ++ gap)).offset = lexeme.chars ++ rest := by
          rw [offset_afterAll_start, List.drop_left]
        refine ⟨written, spelling_of_isWritten written, ?_, ?_, isIn_afterAll_start _ _⟩
        · rw [dropped]
          exact List.prefix_append _ _
        · rw [dropped]
          exact longest
      · have stands := inductionHypothesis (afterAll_gap_chars _ _ _) token later
        rwa [whole, ← List.append_assoc (before ++ gap)]

private theorem offset_le (layout : Layout place cs scan) :
    ∀ token ∈ scan.tokens, place.offset ≤ token.place.offset := by
  induction layout with
  | finish _ => exact fun _ member => by cases member
  | lexeme _ _ _ _ inductionHypothesis =>
      intro token member
      rcases List.mem_cons.1 member with rfl | later
      · rw [Position.offset_afterAll]
        exact Nat.le_add_right _ _
      · have bound := inductionHypothesis token later
        rw [Position.offset_afterAll, Position.offset_afterAll] at bound
        omega

/-- Tokens do not overlap. -/
theorem inOrder (layout : Layout place cs scan) :
    scan.tokens.Pairwise fun token later => token.stop ≤ later.place.offset := by
  induction layout with
  | finish _ => exact List.Pairwise.nil
  | lexeme _ _ _ layout inductionHypothesis =>
      refine List.Pairwise.cons ?_ inductionHypothesis
      intro later member
      have bound := layout.offset_le later member
      rwa [Position.offset_afterAll] at bound

/-- Between the tokens of a text are gaps alone. -/
theorem gaps (layout : Layout (Position.start.afterAll before) cs scan) :
    ∀ stretch ∈ Scan.stretches before.length (before ++ cs).length scan.tokens,
      IsGapBetween (before ++ cs) stretch.1 stretch.2 := by
  generalize begins : Position.start.afterAll before = place at layout
  induction layout generalizing before with
  | @finish place gap isGap =>
      intro stretch member
      cases List.mem_singleton.1 member
      simpa using @isGapBetween_append before _ _ isGap
  | @lexeme place gap rest lexeme scan isGap written longest layout inductionHypothesis =>
      subst begins
      have offset : ((Position.start.afterAll before).afterAll gap).offset =
          (before ++ gap).length := by
        rw [← Position.afterAll_append, offset_afterAll_start]
      intro stretch member
      rcases List.mem_cons.1 member with rfl | later
      · rw [offset]
        exact isGapBetween_append isGap
      · have whole : before ++ (gap ++ (lexeme.chars ++ rest)) =
            before ++ gap ++ lexeme.chars ++ rest := by
          simp only [List.append_assoc]
        have stop : Token.stop ⟨lexeme, (Position.start.afterAll before).afterAll gap⟩ =
            (before ++ gap ++ lexeme.chars).length := by
          rw [Token.stop, offset, @List.length_append _ _ lexeme.chars]
        rw [stop, whole] at later
        rw [whole]
        exact inductionHypothesis (afterAll_gap_chars _ _ _) stretch later

end Layout

/-- A strict scan tells all of a text. -/
theorem Scan.strict_covers {text : String} {scan : Scan} (scanned : Scan.strict text = .ok scan) :
    scan.Covers text.toList := by
  have layout : Layout (Position.start.afterAll []) text.toList scan := .of_strictFrom scanned
  have finish : scan.finish = Position.start.afterAll text.toList := layout.finish_eq
  refine ⟨layout.standsIn, layout.inOrder, layout.gaps, ?_, ?_⟩
  · rw [finish, offset_afterAll_start]
  · rw [finish]
    simpa using isIn_afterAll_start text.toList []

/-- A text with both kinds of comment, a point between a number and a name, one at the end behind a
number, and a string that goes on in another line. -/
private def mixedText : String :=
  "/* \"1\"\n ***/ x1<=1.5.y // z\n\"a\\\"\n\"&&2."

def mixedScan : Scan where
  tokens :=
    [⟨.name "x1", ⟨13, 2, 7⟩⟩, ⟨.symbol .lessEqual, ⟨15, 2, 9⟩⟩,
      ⟨.number ⟨['1'], some ['5']⟩, ⟨17, 2, 11⟩⟩, ⟨.symbol .dot, ⟨20, 2, 14⟩⟩,
      ⟨.name "y", ⟨21, 2, 15⟩⟩, ⟨.string ⟨"a\"\n", by decide⟩, ⟨28, 3, 1⟩⟩,
      ⟨.symbol .and, ⟨34, 4, 2⟩⟩, ⟨.number ⟨['2'], none⟩, ⟨36, 4, 4⟩⟩,
      ⟨.symbol .dot, ⟨37, 4, 5⟩⟩]
  finish := ⟨38, 4, 6⟩

theorem Scan.strict_covers_mixedText :
    Scan.strict mixedText = .ok mixedScan ∧ mixedScan.Covers mixedText.toList := by
  have scanned : Scan.strict mixedText = .ok mixedScan := by decide +kernel
  exact ⟨scanned, Scan.strict_covers scanned⟩

end Rulebook
