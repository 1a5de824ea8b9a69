import Rulebook.Yaml.Node.Nesting
import Rulebook.Yaml.Token.Scan

/-!
# YAML documents

Reading YAML documents, in version 1.1 of the language. A text is one document, which directives may
stand before; a text without any node is null.
-/

namespace Rulebook.Yaml

/-- A text with all kinds of line ends as line feeds, apart from the separators of lines and
paragraphs. -/
def normalized : List Char → List Char
  | '\r' :: '\n' :: cs => '\n' :: normalized cs
  | c :: cs => (if c = '\r' ∨ c = '\u0085' then '\n' else c) :: normalized cs
  | [] => []

def isAllowed (c : Char) : Bool :=
  let code := c.toNat
  c == '\t' || c == '\n' || c == '\r' || (0x20 ≤ code && code ≤ 0x7E) || code == 0x85 ||
    (0xA0 ≤ code && code ≤ 0xD7FF) || (0xE000 ≤ code && code ≤ 0xFFFD) || 0x10000 ≤ code

def standardHandles : List (String × String) :=
  [("!", "!"), ("!!", Tag.standardNames)]

/-- Reads the directives before a document: whether the version is known, and the handles. -/
def readDirectives (hasVersion : Bool) (handles : List (String × String)) :
    List Token → Except Fault (List (String × String) × List Token)
  | .directive (.version major) :: rest =>
    if hasVersion || major ≠ 1 then .error .unreadable else readDirectives true handles rest
  | .directive (.handle handle meaning) :: rest =>
    if (handles.lookup handle).isSome then .error .unreadable
    else readDirectives hasVersion ((handle, meaning) :: handles) rest
  | .directive .other :: rest => readDirectives hasVersion handles rest
  | tokens => .ok (handles, tokens)

def depthFor (tokens : List Token) : Nat :=
  4 * tokens.length + 8

/-- The node of a document that ends here: nothing but marks for its end may come. -/
def finishWith (node : Node) (ahead : Ahead) : Except Fault Node :=
  let behind := ahead.after (ahead.tokens.dropWhile (· = .documentEnd))
  if behind.tokens.isEmpty then .ok node else .error behind.fault

def readRoot (handles : List (String × String)) (tokens : List Token) : Except Fault Node := do
  let (node, behind) ← readNode true false (depthFor tokens) ⟨tokens, handles, [], []⟩
  finishWith node behind

/-- Reads a document that begins with directives or a mark. It may be empty. -/
def readMarked (tokens : List Token) : Except Fault Node := do
  let (handles, tokens) ← readDirectives false [] tokens
  let ahead ← Ahead.expect ⟨tokens, [], [], []⟩ .documentStart
  if ahead.tokens.isEmpty || ahead.isAt [.documentEnd] then finishWith emptyNode ahead
  else readRoot (handles ++ standardHandles) ahead.tokens

def readTokens (tokens : List Token) : Except Fault Node :=
  match tokens with
  | [] => .ok emptyNode
  | .directive _ :: _ | .documentStart :: _ => readMarked tokens
  | _ => readRoot standardHandles tokens

def read (text : String) : Except Fault Plain :=
  if !text.toList.all isAllowed then .error .unreadable
  else
    match readTokens (tokensOf (normalized text.toList)) with
    | .ok node => node.outcome.mapError Late.fault
    | .error fault => .error fault

end Rulebook.Yaml
