import Rulebook.Yaml.Cursor

/-!
# Unquoted scalars

Scalars without quotes. Such a scalar is a run of words. It ends before a colon that separates a key
from its value, before a comment, in flow style before brackets, braces and commas, and in block
style before a line that is not indented enough.
-/

namespace Rulebook.Yaml

/-- Characters with which no scalar without quotes begins, apart from blanks. -/
def indicators : List Char :=
  ['-', '?', ':', ',', '[', ']', '{', '}', '#', '&', '*', '!', '|', '>', '\'', '"', '%', '@',
    '\x60']

/-- Whether a scalar without quotes can begin here. A hyphen begins one unless a blank follows, and
in block style so do a question mark and a colon. -/
def beginsUnquoted (flow : Bool) (cs : List Char) : Bool :=
  match cs with
  | [] => false
  | c :: behind =>
    (!atBlank cs && !indicators.contains c) ||
      (!atBlank behind && (c == '-' || (!flow && (c == '?' || c == ':'))))

/-- Whether a colon with this behind it separates a key from its value. -/
def endsKey (flow : Bool) (behind : List Char) : Bool :=
  atBlank behind ||
    (flow && (behind.head?.map fun c => [',', '[', ']', '{', '}'].contains c).getD false)

def wordLength (flow : Bool) : List Char → Nat
  | [] => 0
  | c :: cs =>
    if Text.isSpacing c || isBreak c || (c == ':' && endsKey flow cs) ||
        (flow && [',', '?', '[', ']', '{', '}'].contains c) then 0
    else wordLength flow cs + 1

/-- What stands between two words: the folded characters, whether it holds a line end and then the
column behind it, and whether it is followed by a mark between documents. -/
structure Gap where
  chars : List Char
  column? : Option Nat
  atMark : Bool
  rest : List Char

/-- Reads the line ends between two words, and the spaces that indent the lines. -/
def readBreaks (breaks : List Char) (column : Nat) : List Char → Gap
  | [] => ⟨folded breaks, some column, false, []⟩
  | c :: cs =>
    if c = ' ' then readBreaks breaks (column + 1) cs
    else if isBreak c then
      if atSeparator cs then ⟨[], some 0, true, cs⟩ else readBreaks (breaks ++ [c]) 0 cs
    else ⟨folded breaks, some column, false, c :: cs⟩

def readGap (cs : List Char) : Gap :=
  match cs.dropWhile (· == ' ') with
  | [] => ⟨cs, none, false, []⟩
  | c :: rest =>
    if isBreak c then readBreaks [] 0 (c :: rest)
    else ⟨cs.takeWhile (· == ' '), none, false, c :: rest⟩

theorem readBreaks_suffix (breaks : List Char) (column : Nat) (cs : List Char) :
    (readBreaks breaks column cs).rest <:+ cs := by
  fun_induction readBreaks breaks column cs with
  | case1 => exact List.suffix_rfl
  | case2 breaks column cs inductionHypothesis =>
    exact inductionHypothesis.trans (List.suffix_cons _ _)
  | case3 => exact List.suffix_cons _ _
  | case4 breaks column c cs _ _ _ inductionHypothesis =>
    exact inductionHypothesis.trans (List.suffix_cons _ _)
  | case5 => exact List.suffix_rfl

theorem readGap_suffix (cs : List Char) : (readGap cs).rest <:+ cs := by
  have behindSpaces := List.dropWhile_suffix (l := cs) (· == ' ')
  unfold readGap
  split
  · exact List.nil_suffix
  · rename_i c rest behind
    rw [behind] at behindSpaces
    split
    · exact (readBreaks_suffix _ _ _).trans behindSpaces
    · exact behindSpaces

/-- A scalar without quotes: its text, what is left behind it and the blanks that follow, and
whether a line end is among these. -/
structure Unquoted where
  text : List Char
  rest : List Char
  crossed : Bool

def Gap.ends (gap : Gap) (flow : Bool) (indent : Int) : Bool :=
  gap.chars.isEmpty || gap.atMark || gap.rest.head? == some '#' ||
    (!flow && gap.column?.any fun column => (column : Int) < indent)

/-- Reads a scalar without quotes, of which in block style each further line has at least the given
indentation. -/
def readUnquoted (flow : Bool) (indent : Int) (cs : List Char) : Unquoted :=
  if _word : 0 < wordLength flow cs ∧ 0 < cs.length then
    let gap := readGap (cs.drop (wordLength flow cs))
    let first := cs.take (wordLength flow cs)
    if gap.ends flow indent then ⟨first, gap.rest, gap.column?.isSome⟩
    else
      let more := readUnquoted flow indent gap.rest
      if more.text.isEmpty then ⟨first, gap.rest, gap.column?.isSome⟩
      else ⟨first ++ gap.chars ++ more.text, more.rest, more.crossed⟩
  else ⟨[], cs, false⟩
termination_by cs.length
decreasing_by
  have shorter := (readGap_suffix (cs.drop (wordLength flow cs))).length_le
  rw [List.length_drop] at shorter
  omega

end Rulebook.Yaml
