import Rulebook.Yaml.Cursor
import Rulebook.Yaml.Property

/-!
# Tokens of a YAML text

The tokens of a YAML text, and how far a text was cut into them. In block style the beginning and the
end of collections show in the indentation only; they have tokens nevertheless, and so have the keys
of mappings. Whether a node is the key of a mapping shows only at the colon behind it: until then its
place is remembered, and the token for the key is put there when the colon comes.
-/

namespace Rulebook.Yaml

/-- A token. A fault stands in the place of the tokens behind it. -/
inductive Token where
  | directive (directive : Directive)
  | documentStart
  | documentEnd
  | blockSequence
  | blockMapping
  | blockEnd
  | openBracket
  | closeBracket
  | openBrace
  | closeBrace
  | comma
  | entry
  | key
  | value
  | alias (name : String)
  | anchor (name : String)
  | tag (tag : WrittenTag)
  | scalar (text : String) (quoted : Bool)
  | halfText (half : Text.HalfText)
  | broken (fault : Fault)
deriving DecidableEq

/-! ## Layout -/

/-- A node that may turn out to be a key: the number of tokens before it, and where it begins. In
block style a node at the indentation of its collection must be one. -/
structure KeyCandidate where
  index : Nat
  required : Bool
  start : Cursor

/-- How far a text was cut into tokens: the tokens, the latest first; the indentation of the
collection in block style and of those around it; whether a key may begin here; and for the
collections in flow style that are open, the inner ones first, the node that may be a key, behind
which stands that of the collection in block style. -/
structure Layout where
  cursor : Cursor
  tokens : List Token
  indent : Int
  outer : List Int
  keyAllowed : Bool
  candidate? : Option KeyCandidate
  enclosing : List (Option KeyCandidate)

namespace Layout

def start (cs : List Char) : Layout :=
  ⟨.start cs, [], -1, [], true, none, []⟩

def isFlow (layout : Layout) : Bool :=
  !layout.enclosing.isEmpty

def push (layout : Layout) (token : Token) : Layout :=
  { layout with tokens := token :: layout.tokens }

/-- Puts a token in front of all but the first tokens, of which the number is given. -/
def insert (layout : Layout) (index : Nat) (token : Token) : Layout :=
  let behind := layout.tokens.length - index
  { layout with tokens := layout.tokens.take behind ++ token :: layout.tokens.drop behind }

def allowKey (layout : Layout) (allowed : Bool) : Layout :=
  { layout with keyAllowed := allowed }

def skip (layout : Layout) (count : Nat) : Layout :=
  { layout with cursor := layout.cursor.skip count }

def upTo (layout : Layout) (rest : List Char) : Layout :=
  { layout with cursor := layout.cursor.upTo rest }

/-- A key stands on one line with its colon and is at most this long. -/
def longestKey : Nat := 1024

/-- Whether a node can be a key no more, since its line or the space for it is at an end. -/
def isStale (layout : Layout) (candidate : KeyCandidate) : Bool :=
  candidate.start.line != layout.cursor.line ||
    longestKey < layout.cursor.offset - candidate.start.offset

/-- A node that is no key; it is a fault if it must be one. -/
def refuse (candidate? : Option KeyCandidate) : Except Fault Unit :=
  match candidate? with
  | some candidate => if candidate.required then .error .unreadable else .ok ()
  | none => .ok ()

/-- What is left of a node that may be a key: nothing where it is too far back. -/
def keepFresh (layout : Layout) : Option KeyCandidate → Except Fault (Option KeyCandidate)
  | some candidate =>
    if layout.isStale candidate then (refuse (some candidate)).map fun _ => none
    else .ok (some candidate)
  | none => .ok none

def dropStale (layout : Layout) : Except Fault Layout := do
  let candidate? ← layout.keepFresh layout.candidate?
  let enclosing ← layout.enclosing.mapM layout.keepFresh
  .ok { layout with candidate? := candidate?, enclosing := enclosing }

def dropKey (layout : Layout) : Except Fault Layout := do
  refuse layout.candidate?
  .ok { layout with candidate? := none }

def noteKey (layout : Layout) : Except Fault Layout :=
  if layout.keyAllowed then do
    let layout ← layout.dropKey
    let required := !layout.isFlow && layout.indent == (layout.cursor.column : Int)
    let candidate := ⟨layout.tokens.length, required, layout.cursor⟩
    .ok { layout with candidate? := some candidate }
  else .ok layout

/-- Ends the collections in block style that are indented further than a column. -/
def unwind (column : Int) (indent : Int) (tokens : List Token) :
    List Int → Int × List Token × List Int
  | [] => (indent, tokens, [])
  | next :: outer =>
    if column < indent then unwind column next (.blockEnd :: tokens) outer
    else (indent, tokens, next :: outer)

/-- Ends the collections in block style that are indented further than a column. Inside of brackets
and braces the indentation has no weight. -/
def unwindTo (layout : Layout) (column : Int) : Layout :=
  if layout.isFlow then layout
  else
    let (indent, tokens, outer) := unwind column layout.indent layout.tokens layout.outer
    { layout with indent := indent, tokens := tokens, outer := outer }

/-- Begins a collection in block style at a column, unless it is one that goes on; its token is put
behind the given number of tokens. -/
def indentTo (layout : Layout) (column : Nat) (index : Nat) (token : Token) : Layout :=
  if !layout.isFlow && layout.indent < (column : Int) then
    let layout := layout.insert index token
    { layout with indent := column, outer := layout.indent :: layout.outer }
  else layout

/-- Begins a collection in block style at the cursor, where a key must be allowed. -/
def beginBlock (layout : Layout) (token : Token) : Except Fault Layout :=
  if layout.isFlow then .ok layout
  else if layout.keyAllowed then
    .ok (layout.indentTo layout.cursor.column layout.tokens.length token)
  else .error .unreadable

end Layout

end Rulebook.Yaml
