import Rulebook.Yaml.Cursor

/-!
# Block scalars

Block scalars, which are written line by line below a header. The header says whether line ends are
kept or folded, what becomes of those at the end, and perhaps how far the lines are indented; else
the first line that is not empty tells.
-/

namespace Rulebook.Yaml

/-- What becomes of the line ends at the end: one stays, none or all. -/
inductive Chomping where
  | clip
  | strip
  | keep
deriving DecidableEq

/-- A line of a text, with the character that ends it. -/
structure Line where
  text : List Char
  ending? : Option Char

/-- The lines of a text. The last one has no ending. -/
def linesOf : List Char → List Line
  | [] => [⟨[], none⟩]
  | c :: cs =>
    if isBreak c then ⟨[], some c⟩ :: linesOf cs
    else
      match linesOf cs with
      | line :: lines => ⟨c :: line.text, line.ending?⟩ :: lines
      | [] => [⟨[c], none⟩]

namespace Line

def length (line : Line) : Nat :=
  line.text.length + line.ending?.toList.length

def indentation (line : Line) : Nat :=
  (line.text.takeWhile (· == ' ')).length

/-- Whether a line that ends holds spaces only. -/
def isEmpty (line : Line) : Bool :=
  line.ending?.isSome && line.text.all (· == ' ')

end Line

/-- The indentation that the lines of a scalar show: that of the first line with text, unless an
empty line before it is longer. -/
def shownIndentation : List Line → Nat
  | [] => 0
  | line :: lines =>
    if line.isEmpty then max line.indentation (shownIndentation lines) else line.indentation

/-- Whether a run of text begins with a blank, which keeps its line from being folded. -/
def isSpaced (text : List Char) : Bool :=
  (text.head?.map Text.isSpacing).getD false

/-- How far a block scalar was read: its characters in reverse, the last line that has text, the
line ends of empty lines behind it, and the number of characters that were read. -/
structure BlockReading where
  reversed : List Char
  last? : Option Line
  breaks : List Char
  length : Nat

namespace BlockReading

/-- What stands between the last line with text and the next one. -/
def joint (reading : BlockReading) (fold : Bool) (next : List Char) : List Char :=
  match reading.last? with
  | none => reading.breaks
  | some last =>
    if fold && last.ending? == some '\n' && !isSpaced last.text && !isSpaced next then
      if reading.breaks.isEmpty then [' '] else reading.breaks
    else last.ending?.toList ++ reading.breaks

def text (reading : BlockReading) (chomping : Chomping) : String :=
  let ending := (reading.last?.bind Line.ending?).toList
  let tail :=
    match chomping with
    | .clip => ending
    | .strip => []
    | .keep => ending ++ reading.breaks
  String.ofList (reading.reversed.reverse ++ tail)

def read (fold : Bool) (indent : Nat) (reading : BlockReading) : List Line → BlockReading
  | [] => reading
  | line :: lines =>
    let length := reading.length + line.length
    let text := line.text.drop indent
    if line.isEmpty && line.text.length ≤ indent then
      let breaks := reading.breaks ++ line.ending?.toList
      read fold indent { reading with breaks := breaks, length := length } lines
    else if indent ≤ line.indentation && !text.isEmpty then
      let reversed := text.reverse ++ (reading.joint fold text).reverse ++ reading.reversed
      read fold indent ⟨reversed, some ⟨text, line.ending?⟩, [], length⟩ lines
    else reading

end BlockReading

def takeChomping : List Char → Option Chomping × List Char
  | '+' :: cs => (some .keep, cs)
  | '-' :: cs => (some .strip, cs)
  | cs => (none, cs)

/-- Takes the digit for the indentation beyond that of the collection around the scalar. -/
def takeIndentation : List Char → Option Nat × List Char
  | c :: cs =>
    if '1' ≤ c ∧ c ≤ '9' then (some (c.toNat - 48), cs) else (none, c :: cs)
  | [] => (none, [])

/-- Reads a block scalar behind its indicator, inside a collection with the given indentation: its
text, and what is left. -/
def readBlockScalar? (fold : Bool) (outer : Int) (cs : List Char) :
    Option (String × List Char) := do
  let (before?, cs) := takeChomping cs
  let (more?, cs) := takeIndentation cs
  let (behind?, cs) := if before?.isSome then (none, cs) else takeChomping cs
  let cs ← takeLineEnd? cs
  let lines := linesOf cs
  let least := max (outer + 1).toNat 1
  let indent :=
    match more? with
    | some more => least + more - 1
    | none => max least (shownIndentation lines)
  let reading := BlockReading.read fold indent ⟨[], none, [], 0⟩ lines
  some (reading.text ((before?.orElse fun _ => behind?).getD .clip), cs.drop reading.length)

end Rulebook.Yaml
