import Rulebook.Token.Basic
import Rulebook.Text.CharacterClass

/-!
# Scanning

Scanning a text into tokens. The text is cut into pieces, each of which is a token or a gap between
tokens: blanks, a comment that ends with its line, or a comment between marks. A strict scan ends at
the first place where no piece can be read; a lenient one leaves a malformed token there and goes on
behind the next character.
-/

namespace Rulebook

open Text (Position)

def startsName (c : Char) : Bool :=
  Text.isLetter c || c == '_'

def continuesName (c : Char) : Bool :=
  Text.isLetter c || Text.isNumeral c || c == '_'

/-- One piece of a text. -/
inductive Piece where
  | gap
  | lexeme (lexeme : Lexeme)

namespace Piece

/-- The number of characters up to the mark that ends a comment, with the mark. -/
def commentLength? : List Char → Option Nat
  | [] => none
  | '*' :: '/' :: _ => some 2
  | _ :: cs => (commentLength? cs).map (· + 1)

/-- A name or a keyword. -/
def word (text : String) : Lexeme :=
  match Keyword.ofText? text with
  | some keyword => .keyword keyword
  | none => .name text

/-- The digits of a number, and those behind a point that a digit follows. -/
def numeral (cs : List Char) : Numeral :=
  let whole := cs.takeWhile Text.isDigit
  match cs.dropWhile Text.isDigit with
  | '.' :: behind =>
    let fraction := behind.takeWhile Text.isDigit
    if fraction.isEmpty then ⟨whole, none⟩ else ⟨whole, some fraction⟩
  | _ => ⟨whole, none⟩

/-- The piece at the start of a text, given by its first character and the others, and how many of
the others belong to it. -/
def atStart (c : Char) (cs : List Char) : Except LexicalFault (Piece × Nat) :=
  if Text.isBlank c then .ok (gap, (cs.takeWhile Text.isBlank).length)
  else if c = '/' && cs.head? = some '/' then
    .ok (gap, (cs.takeWhile (· != '\n')).length)
  else if c = '/' && cs.head? = some '*' then
    match commentLength? cs.tail with
    | some length => .ok (gap, length + 1)
    | none => .error .openComment
  else if startsName c then
    let others := cs.takeWhile continuesName
    .ok (lexeme (word (String.ofList (c :: others))), others.length)
  else if Text.isDigit c then
    let written := numeral (c :: cs)
    .ok (lexeme (.number written), written.chars.length - 1)
  else if c = '"' then
    match Text.quotedText? cs with
    | some (text, length) => .ok (lexeme (.string text), length)
    | none => .error .openString
  else
    match Symbol.atStart? (c :: cs) with
    | some symbol => .ok (lexeme (.symbol symbol), symbol.text.length - 1)
    | none => .error (.unexpectedCharacter c)

def tokens (piece : Piece) (place : Position) : List Token :=
  match piece with
  | gap => []
  | lexeme found => [⟨found, place⟩]

end Piece

/-- The tokens of a text and the place where the text ends. -/
structure Scan where
  tokens : List Token
  finish : Position
deriving DecidableEq

namespace Scan

def prepend (tokens : List Token) (scan : Scan) : Scan :=
  ⟨tokens ++ scan.tokens, scan.finish⟩

/-- Where and why a strict scan ended early. -/
structure Fault where
  cause : LexicalFault
  place : Position
deriving DecidableEq, Repr

/-- Scans a text that begins at a place, up to the first fault. -/
def strictFrom (place : Position) : List Char → Except Fault Scan
  | [] => .ok ⟨[], place⟩
  | c :: cs =>
    match Piece.atStart c cs with
    | .error cause => .error ⟨cause, place⟩
    | .ok (piece, others) =>
      (strictFrom (place.afterAll (c :: cs.take others)) (cs.drop others)).map
        (prepend (piece.tokens place))
termination_by cs => cs.length
decreasing_by
  simp only [List.length_drop, List.length_cons]
  omega

/-- Scans a text that begins at a place, past all faults. -/
def lenientFrom (place : Position) : List Char → Scan
  | [] => ⟨[], place⟩
  | c :: cs =>
    match Piece.atStart c cs with
    | .error cause => (lenientFrom (place.after c) cs).prepend [⟨.malformed cause, place⟩]
    | .ok (piece, others) =>
      (lenientFrom (place.afterAll (c :: cs.take others)) (cs.drop others)).prepend
        (piece.tokens place)
termination_by cs => cs.length
decreasing_by
  · simp
  · simp only [List.length_drop, List.length_cons]
    omega

/-- The tokens of a text, unless some part of it is no token. -/
def strict (text : String) : Except Fault Scan :=
  strictFrom Position.start text.toList

/-- The tokens of a text, with malformed ones where no token can be read. -/
def lenient (text : String) : Scan :=
  lenientFrom Position.start text.toList

end Scan

end Rulebook
