import Rulebook.Text.Encoding
import Rulebook.Yaml.Cursor

/-!
# Quoted scalars

Scalars in quotes. Blanks at the beginning and the end of a line have no weight, and line ends are
folded. Between single quotes two of them stand for one; between double quotes a backslash begins an
escape, and at the end of a line it takes the line end away.
-/

namespace Rulebook.Yaml

/-- What was read since the last character that has weight: blanks, or line ends that are to be
folded, or line ends behind one that was taken away, which stay. -/
inductive Pending where
  | blanks (reversed : List Char)
  | breaks (found : List Char)
  | behindEscape (found : List Char)

/-- How far a scalar in quotes was read: its characters in reverse, what is pending, and halves of
characters by their places. -/
structure Quoting where
  reversed : List Char
  pending : Pending
  halves : List (Nat × Nat)

namespace Quoting

def start : Quoting :=
  ⟨[], .blanks [], []⟩

/-- The characters read so far in reverse, with what is pending. -/
def flushed (quoting : Quoting) : List Char :=
  match quoting.pending with
  | .blanks reversed => reversed ++ quoting.reversed
  | .breaks found => (folded found).reverse ++ quoting.reversed
  | .behindEscape found => found.reverse ++ quoting.reversed

def push (quoting : Quoting) (c : Char) : Quoting :=
  { quoting with reversed := c :: quoting.flushed, pending := .blanks [] }

def pushHalf (quoting : Quoting) (code : Nat) : Quoting :=
  let place := quoting.flushed.length
  { quoting.push Text.replacement with halves := (place, code) :: quoting.halves }

def pushCode (quoting : Quoting) (code : Nat) : Quoting :=
  if Text.isHalf code then quoting.pushHalf code else quoting.push (Char.ofNat code)

def pushBlank (quoting : Quoting) (c : Char) : Quoting :=
  match quoting.pending with
  | .blanks reversed => { quoting with pending := .blanks (c :: reversed) }
  | _ => quoting

def pushBreak (quoting : Quoting) (c : Char) : Quoting :=
  match quoting.pending with
  | .blanks _ => { quoting with pending := .breaks [c] }
  | .breaks found => { quoting with pending := .breaks (found ++ [c]) }
  | .behindEscape found => { quoting with pending := .behindEscape (found ++ [c]) }

def escapeBreak (quoting : Quoting) : Quoting :=
  { quoting with reversed := quoting.flushed, pending := .behindEscape [] }

/-- The text read so far, with halves of characters if there are any. -/
def text (quoting : Quoting) : Text.HalfText :=
  ⟨String.ofList quoting.flushed.reverse, quoting.halves⟩

end Quoting

def readSingle (quoting : Quoting) : List Char → Except Fault (Text.HalfText × List Char)
  | [] => .error .unreadable
  | '\'' :: '\'' :: cs => readSingle (quoting.push '\'') cs
  | c :: cs =>
    if c = '\'' then .ok (quoting.text, cs)
    else if isBreak c then
      if atSeparator cs then .error .unreadable else readSingle (quoting.pushBreak c) cs
    else if Text.isSpacing c then readSingle (quoting.pushBlank c) cs
    else readSingle (quoting.push c) cs

def escape? (c : Char) : Option Char :=
  [('0', '\x00'), ('a', '\x07'), ('b', '\x08'), ('t', '\t'), ('\t', '\t'), ('n', '\n'),
    ('v', '\x0b'), ('f', '\x0c'), ('r', '\r'), ('e', '\x1b'), (' ', ' '), ('"', '"'),
    ('\\', '\\'), ('/', '/'), ('N', '\u0085'), ('_', '\u00a0'), ('L', '\u2028'),
    ('P', '\u2029')].lookup c

/-- The number of hexadecimal digits behind a backslash and a character. -/
def codeWidth? (c : Char) : Option Nat :=
  [('x', 2), ('u', 4), ('U', 8)].lookup c

def hexValue? (c : Char) : Option Nat :=
  if c.isDigit then some (c.toNat - 48)
  else if 'a' ≤ c ∧ c ≤ 'f' then some (c.toNat - 87)
  else if 'A' ≤ c ∧ c ≤ 'F' then some (c.toNat - 55)
  else none

def hexNumber? (cs : List Char) : Option Nat :=
  cs.foldlM (fun value c => (hexValue? c).map (16 * value + ·)) 0

/-- Codes from here on are beyond what counts as a code of a character. -/
def codeBound : Nat := 0x80000000

def checkCode (code : Nat) : Except Fault Nat :=
  if code < 0x110000 then .ok code
  else .error (if code < codeBound then .noSuchValue else .outOfBounds)

def readCode (width : Nat) (cs : List Char) : Except Fault Nat :=
  match hexNumber? (cs.take width) with
  | some code => if (cs.take width).length < width then .error .unreadable else checkCode code
  | none => .error .unreadable

def readDouble (quoting : Quoting) (cs : List Char) : Except Fault (Text.HalfText × List Char) :=
  match cs with
  | [] => .error .unreadable
  | '\\' :: c :: cs =>
    if isBreak c then
      if atSeparator cs then .error .unreadable else readDouble quoting.escapeBreak cs
    else
      match escape? c, codeWidth? c with
      | some meant, _ => readDouble (quoting.push meant) cs
      | none, some width =>
        match readCode width cs with
        | .ok code => readDouble (quoting.pushCode code) (cs.drop width)
        | .error fault => .error fault
      | none, none => .error .unreadable
  | c :: cs =>
    if c = '"' then .ok (quoting.text, cs)
    else if isBreak c then
      if atSeparator cs then .error .unreadable else readDouble (quoting.pushBreak c) cs
    else if Text.isSpacing c then readDouble (quoting.pushBlank c) cs
    else readDouble (quoting.push c) cs
termination_by cs.length
decreasing_by
  all_goals simp only [List.length_cons, List.length_drop]
  all_goals omega

end Rulebook.Yaml
