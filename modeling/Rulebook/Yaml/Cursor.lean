import Rulebook.Text.CharacterClass

/-!
# Places and faults in a YAML text

What is wrong with a text that is to be read as YAML, places in such a text, and the characters that
end lines and separate words. Most of what is wrong has one name only: the text cannot be read. The
other faults arise from scalars of a type whose value cannot be had. Lines and columns are counted
from zero. The byte order mark takes no column.
-/

namespace Rulebook.Yaml

/-- Why a text stands for no datum. -/
inductive Fault where
  /-- The text is no document, or a node of it is not of its type. -/
  | unreadable
  /-- There is no such number, day, moment or character. -/
  | noSuchValue
  /-- A number is beyond all bounds. -/
  | outOfBounds
  /-- A number has no digits at all. -/
  | noDigits
  /-- A word is no truth value. -/
  | notATruthValue
  /-- A text is no day or moment. -/
  | notATime
  /-- A mapping stands where a day or moment is asked for. -/
  | timeNotText
deriving DecidableEq, Repr

/-! ## Places -/

def byteOrderMark : Char := '\ufeff'

/-- Line feeds and the separators of lines and paragraphs end a line. -/
def isBreak (c : Char) : Bool :=
  c == '\n' || c == '\u2028' || c == '\u2029'

def atLineEnd : List Char → Bool
  | [] => true
  | c :: _ => isBreak c

def atGap : List Char → Bool
  | [] => true
  | c :: _ => c == ' ' || isBreak c

def atBlank : List Char → Bool
  | [] => true
  | c :: _ => Text.isSpacing c || isBreak c

def atDocumentStart : List Char → Bool
  | '-' :: '-' :: '-' :: cs => atBlank cs
  | _ => false

def atDocumentEnd : List Char → Bool
  | '.' :: '.' :: '.' :: cs => atBlank cs
  | _ => false

def atSeparator (cs : List Char) : Bool :=
  atDocumentStart cs || atDocumentEnd cs

/-- What is left of a text behind the rest of its first line. -/
def lineEnd (cs : List Char) : List Char :=
  cs.dropWhile fun c => !isBreak c

/-- What is left behind spaces, a comment and the end of a line; `none` if there is anything else on
the line. -/
def takeLineEnd? (cs : List Char) : Option (List Char) :=
  if !atGap cs then none
  else
    let cs := cs.dropWhile (· == ' ')
    let cs := if cs.head? == some '#' then lineEnd cs else cs
    if atLineEnd cs then some (cs.drop 1) else none

/-- The part of a text that is still to be read, with the place where it begins. -/
structure Cursor where
  rest : List Char
  offset : Nat
  line : Nat
  column : Nat

namespace Cursor

def start (cs : List Char) : Cursor :=
  ⟨cs, 0, 0, 0⟩

def step (cursor : Cursor) : Cursor :=
  match cursor.rest with
  | [] => cursor
  | c :: cs =>
    if isBreak c then ⟨cs, cursor.offset + 1, cursor.line + 1, 0⟩
    else
      ⟨cs, cursor.offset + 1, cursor.line,
        if c = byteOrderMark then cursor.column else cursor.column + 1⟩

def skip (cursor : Cursor) : Nat → Cursor
  | 0 => cursor
  | count + 1 => cursor.step.skip count

def upTo (cursor : Cursor) (rest : List Char) : Cursor :=
  cursor.skip (cursor.rest.length - rest.length)

end Cursor

/-- Line ends within a scalar, folded: a single line feed becomes a space, and of several the first
is dropped. Other line ends stay. -/
def folded : List Char → List Char
  | ['\n'] => [' ']
  | '\n' :: breaks => breaks
  | breaks => breaks

end Rulebook.Yaml
