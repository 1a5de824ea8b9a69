import Rulebook.Yaml.Scalar.Block
import Rulebook.Yaml.Scalar.Unquoted
import Rulebook.Yaml.Token.Layout

/-!
# Cutting a text into tokens

Cutting a YAML text into tokens. Each step passes over spaces, comments and line ends, ends the
collections that the indentation ends, and reads one token.
-/

namespace Rulebook.Yaml

namespace Layout

/-- What stands behind spaces, comments and line ends, and whether there was a line end. -/
def gapRest (inComment crossed : Bool) : List Char → Bool × List Char
  | [] => (crossed, [])
  | c :: cs =>
    if isBreak c then gapRest false true cs
    else if inComment then gapRest true crossed cs
    else if c = ' ' then gapRest false crossed cs
    else if c = '#' then gapRest true crossed cs
    else (crossed, c :: cs)

/-- Moves on to the next token. In block style a key may begin at the beginning of a line. -/
def skipGap (layout : Layout) : Layout :=
  let (crossed, rest) := gapRest false false layout.cursor.rest
  (layout.upTo rest).allowKey (layout.keyAllowed || (crossed && !layout.isFlow))

/-- Prepares for the next token: nodes that can be keys no more are forgotten, and collections that
the indentation ends are ended. -/
def approach (layout : Layout) : Except Fault Layout := do
  let layout ← layout.skipGap.dropStale
  .ok (layout.unwindTo layout.cursor.column)

/-- Ends all collections in block style, before a mark between documents or the end of the text. -/
def closeAll (layout : Layout) : Except Fault Layout := do
  let layout ← (layout.unwindTo (-1)).dropKey
  .ok (layout.allowKey false)

/-- Reads a token for which a reader of its text is given, behind a mark of some length. It may be
the beginning of a key. -/
def property {α : Type} (layout : Layout) (read? : List Char → Option (α × List Char))
    (token : α → Token) (mark : Nat) : Except Fault Layout := do
  let layout ← layout.noteKey
  match read? (layout.cursor.rest.drop mark) with
  | some (found, rest) => .ok (((layout.push (token found)).upTo rest).allowKey false)
  | none => .error .unreadable

def quoted (layout : Layout)
    (read : Quoting → List Char → Except Fault (Text.HalfText × List Char)) :
    Except Fault Layout := do
  let layout ← layout.noteKey
  let (half, rest) ← read .start (layout.cursor.rest.drop 1)
  let token := if half.halves.isEmpty then .scalar half.text true else .halfText half
  .ok (((layout.push token).upTo rest).allowKey false)

def unquoted (layout : Layout) : Except Fault Layout := do
  let layout ← layout.noteKey
  let scalar := readUnquoted layout.isFlow (layout.indent + 1) layout.cursor.rest
  let token := .scalar (String.ofList scalar.text) false
  .ok (((layout.push token).upTo scalar.rest).allowKey scalar.crossed)

def blockScalar (layout : Layout) (fold : Bool) : Except Fault Layout := do
  let layout ← (layout.allowKey true).dropKey
  match readBlockScalar? fold layout.indent (layout.cursor.rest.drop 1) with
  | some (text, rest) => .ok ((layout.push (.scalar text true)).upTo rest)
  | none => .error .unreadable

def opening (layout : Layout) (token : Token) : Except Fault Layout := do
  let layout ← layout.noteKey
  let enclosing := layout.candidate? :: layout.enclosing
  let layout := { layout with candidate? := none, enclosing := enclosing }
  .ok (((layout.push token).skip 1).allowKey true)

def closing (layout : Layout) (token : Token) : Except Fault Layout := do
  let layout ← layout.dropKey
  match layout.enclosing with
  | candidate? :: enclosing =>
    let layout := { layout with candidate? := candidate?, enclosing := enclosing }
    .ok (((layout.push token).skip 1).allowKey false)
  | [] => .error .unreadable

def comma (layout : Layout) : Except Fault Layout := do
  let layout ← layout.dropKey
  .ok (((layout.push .comma).skip 1).allowKey true)

def entry (layout : Layout) : Except Fault Layout := do
  let layout ← layout.beginBlock .blockSequence
  let layout ← layout.dropKey
  .ok (((layout.push .entry).skip 1).allowKey true)

def key (layout : Layout) : Except Fault Layout := do
  let layout ← layout.beginBlock .blockMapping
  let layout ← layout.dropKey
  .ok (((layout.push .key).skip 1).allowKey !layout.isFlow)

/-- Reads the colon before a value. If a node may be its key, it is. -/
def value (layout : Layout) : Except Fault Layout := do
  match layout.candidate? with
  | some candidate =>
    let layout := { layout with candidate? := none }
    let layout := layout.insert candidate.index .key
    let layout := layout.indentTo candidate.start.column candidate.index .blockMapping
    .ok (((layout.push .value).skip 1).allowKey false)
  | none =>
    let layout ← layout.beginBlock .blockMapping
    .ok (((layout.push .value).skip 1).allowKey !layout.isFlow)

def next (layout : Layout) : Except Fault Layout :=
  let cs := layout.cursor.rest
  let behind := cs.drop 1
  let flow := layout.isFlow
  let first := layout.cursor.column = 0
  match cs.head? with
  | none => .error .unreadable
  | some c =>
    if first ∧ c = '%' then do
      (← layout.closeAll).property readDirective? .directive 1
    else if first ∧ atDocumentStart cs then do
      .ok (((← layout.closeAll).push .documentStart).skip 3)
    else if first ∧ atDocumentEnd cs then do
      .ok (((← layout.closeAll).push .documentEnd).skip 3)
    else if c = '[' then layout.opening .openBracket
    else if c = '{' then layout.opening .openBrace
    else if c = ']' then layout.closing .closeBracket
    else if c = '}' then layout.closing .closeBrace
    else if c = ',' then layout.comma
    else if c = '-' ∧ atBlank behind then layout.entry
    else if c = '?' ∧ (flow ∨ atBlank behind) then layout.key
    else if c = ':' ∧ (flow ∨ atBlank behind) then layout.value
    else if c = '*' then layout.property readAnchor? .alias 1
    else if c = '&' then layout.property readAnchor? .anchor 1
    else if c = '!' then layout.property readTag? .tag 0
    else if c = '|' ∧ !flow then layout.blockScalar false
    else if c = '>' ∧ !flow then layout.blockScalar true
    else if c = '\'' then layout.quoted readSingle
    else if c = '"' then layout.quoted readDouble
    else if beginsUnquoted flow cs then layout.unquoted
    else .error .unreadable

/-- The tokens of a text that has a fault behind here. They end where a node begins that might be a
key, since its tokens are not known before the next one. -/
def brokenBy (layout : Layout) (fault : Fault) : List Token :=
  let candidates :=
    match layout.dropStale with
    | .ok layout => (layout.candidate? :: layout.enclosing).filterMap id
    | .error _ => []
  let known := candidates.foldl (fun known candidate => min known candidate.index)
    layout.tokens.length
  layout.tokens.reverse.take known ++ [.broken fault]

/-- The tokens of a text from here on, behind those before. Each token takes a character at
least. -/
def finish : Nat → Layout → List Token
  | 0, layout => layout.brokenBy .unreadable
  | steps + 1, layout =>
    match layout.approach with
    | .error fault => layout.brokenBy fault
    | .ok next =>
      let isEnd := next.cursor.rest.isEmpty
      match if isEnd then next.closeAll else next.next with
      | .error fault => layout.brokenBy fault
      | .ok next => if isEnd then next.tokens.reverse else finish steps next

end Layout

/-- The tokens of a text, behind a byte order mark if there is one. -/
def tokensOf (cs : List Char) : List Token :=
  let layout := Layout.start cs
  let layout := if cs.head? = some byteOrderMark then layout.skip 1 else layout
  layout.finish (cs.length + 1)

end Rulebook.Yaml
