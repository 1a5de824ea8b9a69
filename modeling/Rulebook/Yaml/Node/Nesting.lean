import Rulebook.Yaml.Node
import Rulebook.Yaml.Token.Layout

/-!
# Nodes from tokens

Nodes from the tokens of a YAML text. Names are given to nodes by anchors and hold to the end of the
document; an alias stands for the node with its name. A name may be used within the very node that
has it: there it stands for the node as it would be with an empty collection of its kind under the
name.
-/

namespace Rulebook.Yaml

/-- What is still to be read, with what is known at this place: the meanings of the handles of tags,
the nodes with names, the latest first, and the names that were used. -/
structure Ahead where
  tokens : List Token
  handles : List (String × String)
  named : List (String × Node)
  used : List String

namespace Ahead

def after (ahead : Ahead) (tokens : List Token) : Ahead :=
  { ahead with tokens := tokens }

def fault (ahead : Ahead) : Fault :=
  match ahead.tokens with
  | .broken fault :: _ => fault
  | _ => .unreadable

def expect (ahead : Ahead) (token : Token) : Except Fault Ahead :=
  match ahead.tokens with
  | found :: rest => if found = token then .ok (ahead.after rest) else .error ahead.fault
  | [] => .error ahead.fault

def isAt (ahead : Ahead) (tokens : List Token) : Bool :=
  match ahead.tokens with
  | found :: _ => tokens.contains found
  | [] => false

def name (ahead : Ahead) (name? : Option String) (node : Node) : Ahead :=
  match name? with
  | some name => { ahead with named := (name, node) :: ahead.named }
  | none => ahead

end Ahead

abbrev NodeResult := Except Fault (Node × Ahead)

/-! ### Anchors and tags -/

/-- The anchor and the tag of a node, as far as it has them. -/
structure Properties where
  anchor? : Option String
  tag? : Option WrittenTag

def takeProperties (ahead : Ahead) : Properties × Ahead :=
  match ahead.tokens with
  | .anchor name :: .tag tag :: rest => (⟨some name, some tag⟩, ahead.after rest)
  | .tag tag :: .anchor name :: rest => (⟨some name, some tag⟩, ahead.after rest)
  | .anchor name :: rest => (⟨some name, none⟩, ahead.after rest)
  | .tag tag :: rest => (⟨none, some tag⟩, ahead.after rest)
  | _ => (⟨none, none⟩, ahead)

def completeName? (handles : List (String × String)) (tag : WrittenTag) : Option String :=
  match tag.handle? with
  | none => some tag.suffix
  | some handle => (handles.lookup handle).map (· ++ tag.suffix)

/-- The tag of a node that leaves its type open: none or a lone exclamation mark. -/
def isOpen (name? : Option String) : Bool :=
  name?.all (· == "!")

/-- The type of a scalar. Without a tag the text tells if it is not quoted, and with a lone
exclamation mark it does so always. -/
def scalarTag (name? : Option String) (text : String) (quoted : Bool) : Tag :=
  match name? with
  | none => if quoted then .text else tagOfText text
  | some name => if name = "!" then tagOfText text else .ofName name

def collectionTag (name? : Option String) (standard : Tag) : Tag :=
  if isOpen name? then standard else .ofName (name?.getD "")

/-- Behind a member of a collection in flow style comes a comma or the end of the collection. -/
def Ahead.behindMember (ahead : Ahead) (close : Token) : Except Fault Ahead :=
  if ahead.isAt [close] then .ok ahead else ahead.expect .comma

/-- Reads a collection. If it is used under its own name, it is read again when it is known what the
name stands for. -/
def readNamed (name? : Option String) (empty : Node) (ahead : Ahead)
    (read : Ahead → NodeResult) : NodeResult := do
  let (node, behind) ← read (ahead.name name? empty)
  let (node, behind) ←
    if name?.any behind.used.contains then read (ahead.name name? node) else .ok (node, behind)
  .ok (node, behind.name name? node)

/-- The node where nothing is written. -/
def emptyNode : Node :=
  .ofText .null ""

def readNothing (anchor? name? : Option String) (ahead : Ahead) : NodeResult :=
  if anchor?.isSome || name?.isSome then
    let node := .ofText (scalarTag name? "" false) ""
    .ok (node, ahead.name anchor? node)
  else .error ahead.fault

mutual

/-- Reads a node. Collections in block style begin only where they may; under a key that holds also
for a sequence whose hyphens stand right below the key. -/
def readNode (block underKey : Bool) : Nat → Ahead → NodeResult
  | 0, ahead => .error ahead.fault
  | depth + 1, ahead =>
    match ahead.tokens with
    | .alias name :: rest =>
      match ahead.named.lookup name with
      | some node => .ok (node, { ahead with tokens := rest, used := name :: ahead.used })
      | none => .error .unreadable
    | _ =>
      let (properties, ahead) := takeProperties ahead
      let anchor? := properties.anchor?
      let name? := properties.tag?.bind (completeName? ahead.handles)
      let isNamed := anchor?.any fun name => (ahead.named.lookup name).isSome
      if isNamed || (name?.isNone && properties.tag?.isSome) then .error ahead.fault
      else
        let sequence (read : Ahead → Except Fault (List Node × Ahead)) : NodeResult :=
          let tag := collectionTag name? .list
          readNamed anchor? (.ofItems tag []) ahead fun ahead => do
            let (items, behind) ← read ahead
            .ok (.ofItems tag items, behind)
        let mapping (read : Ahead → Except Fault (List (Node × Node) × Ahead)) :
            NodeResult :=
          let tag := collectionTag name? .mapping
          readNamed anchor? (.ofEntries tag []) ahead fun ahead => do
            let (entries, behind) ← read ahead
            .ok (.ofEntries tag entries, behind)
        match ahead.tokens with
        | .scalar text quoted :: rest =>
          let node := .ofText (scalarTag name? text quoted) text
          .ok (node, (ahead.after rest).name anchor? node)
        | .halfText half :: rest =>
          let node := .ofHalfText (scalarTag name? half.text true) half
          .ok (node, (ahead.after rest).name anchor? node)
        | .openBracket :: rest =>
          sequence fun ahead => readFlowItems depth [] (ahead.after rest)
        | .openBrace :: rest =>
          mapping fun ahead => readFlowEntries depth [] (ahead.after rest)
        | token :: rest =>
          if underKey && token = .entry then
            sequence fun ahead => readItems depth [.key, .value] [] ahead
          else if block && token = .blockSequence then
            sequence fun ahead => do
              let (items, behind) ← readItems depth [] [] (ahead.after rest)
              .ok (items, ← behind.expect .blockEnd)
          else if block && token = .blockMapping then
            mapping fun ahead => readEntries depth [] (ahead.after rest)
          else readNothing anchor? name? ahead
        | [] => readNothing anchor? name? ahead

/-- Reads a node unless one of some tokens comes next, before which nothing is written. -/
def readNodeBefore (block underKey : Bool) (ends : List Token) : Nat → Ahead → NodeResult
  | 0, ahead => .error ahead.fault
  | depth + 1, ahead =>
    if ahead.isAt ends then .ok (emptyNode, ahead)
    else readNode block underKey depth ahead

/-- Reads the items of a sequence in block style, as long as hyphens come. An item may be left out
before the end of the sequence and before further tokens. -/
def readItems : Nat → List Token → List Node → Ahead → Except Fault (List Node × Ahead)
  | 0, _, _, ahead => .error ahead.fault
  | depth + 1, ends, items, ahead =>
    match ahead.tokens with
    | .entry :: rest => do
      let (item, behind) ←
        readNodeBefore true false (.entry :: .blockEnd :: ends) depth (ahead.after rest)
      readItems depth ends (items ++ [item]) behind
    | _ => .ok (items, ahead)

/-- Reads what stands behind the token for a value, if it comes next. -/
def readValue (block : Bool) (ends : List Token) : Nat → Ahead → NodeResult
  | 0, ahead => .error ahead.fault
  | depth + 1, ahead =>
    match ahead.tokens with
    | .value :: rest => readNodeBefore block block ends depth (ahead.after rest)
    | _ => .ok (emptyNode, ahead)

def readEntries :
    Nat → List (Node × Node) → Ahead → Except Fault (List (Node × Node) × Ahead)
  | 0, _, ahead => .error ahead.fault
  | depth + 1, entries, ahead =>
    match ahead.tokens with
    | .key :: rest => do
      let ends := [Token.key, .value, .blockEnd]
      let (key, behind) ← readNodeBefore true true ends depth (ahead.after rest)
      let (value, behind) ← readValue true ends depth behind
      readEntries depth (entries ++ [(key, value)]) behind
    | _ => do .ok (entries, ← ahead.expect .blockEnd)

/-- Reads the items of a sequence in flow style and its end. An item with a key is a mapping with
one entry. -/
def readFlowItems : Nat → List Node → Ahead → Except Fault (List Node × Ahead)
  | 0, _, ahead => .error ahead.fault
  | depth + 1, items, ahead =>
    if ahead.isAt [.closeBracket] then do .ok (items, ← ahead.expect .closeBracket)
    else do
      let ends := [Token.comma, .closeBracket]
      let (item, behind) ←
        match ahead.tokens with
        | .key :: rest => do
          let (key, behind) ← readNodeBefore false false (.value :: ends) depth (ahead.after rest)
          let (value, behind) ← readValue false ends depth behind
          .ok (.ofEntries .mapping [(key, value)], behind)
        | _ => readNode false false depth ahead
      readFlowItems depth (items ++ [item]) (← behind.behindMember .closeBracket)

/-- Reads the entries of a mapping in flow style and its end. A node without a colon is a key of
nothing. -/
def readFlowEntries :
    Nat → List (Node × Node) → Ahead → Except Fault (List (Node × Node) × Ahead)
  | 0, _, ahead => .error ahead.fault
  | depth + 1, entries, ahead =>
    if ahead.isAt [.closeBrace] then do .ok (entries, ← ahead.expect .closeBrace)
    else do
      let ends := [Token.comma, .closeBrace]
      let (entry, behind) ←
        match ahead.tokens with
        | .key :: rest => do
          let (key, behind) ← readNodeBefore false false (.value :: ends) depth (ahead.after rest)
          let (value, behind) ← readValue false ends depth behind
          .ok ((key, value), behind)
        | _ => do
          let (key, behind) ← readNode false false depth ahead
          .ok ((key, emptyNode), behind)
      readFlowEntries depth (entries ++ [entry]) (← behind.behindMember .closeBrace)

end

end Rulebook.Yaml
