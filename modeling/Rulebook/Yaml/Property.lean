import Rulebook.Yaml.Scalar.Quoted

/-!
# Properties of nodes

What may be said about nodes beside their content: anchors that name them, aliases that stand for
named ones, tags that give their types, and the directives before a document that say how tags are
written.
-/

namespace Rulebook.Yaml

def isNameChar (c : Char) : Bool :=
  c.isAlphanum || c == '-' || c == '_'

def readAnchor? (cs : List Char) : Option (String × List Char) :=
  let name := cs.takeWhile isNameChar
  let rest := cs.dropWhile isNameChar
  let ends :=
    atBlank rest ||
      (rest.head?.map fun c => ['?', ':', ',', ']', '}', '%', '@', '\x60'].contains c).getD false
  if name.isEmpty || !ends then none else some (String.ofList name, rest)

/-! ### Tags -/

/-- A tag as it is written: a handle, which stands for the beginning of a longer tag, and the rest
of the tag; without a handle the tag is complete. -/
structure WrittenTag where
  handle? : Option String
  suffix : String
deriving DecidableEq

def isTagChar (c : Char) : Bool :=
  c.isAlphanum || "-;/?:@&=+$,_.!~*'()[]%".toList.contains c

def encodedText? (bytes : List UInt8) : Option (List Char) :=
  (String.fromUTF8? ⟨bytes.toArray⟩).map String.toList

/-- A tag with its escapes replaced: percent signs with two hexadecimal digits, which write bytes
of text. The first argument holds bytes that are still to be read as text. -/
def unescaped? (bytes : List UInt8) : List Char → Option (List Char)
  | [] => encodedText? bytes
  | '%' :: a :: b :: cs => do
    let high ← hexValue? a
    let low ← hexValue? b
    unescaped? (bytes ++ [UInt8.ofNat (16 * high + low)]) cs
  | c :: cs => do
    if c = '%' then none
    else
      let before ← encodedText? bytes
      let behind ← unescaped? [] cs
      some (before ++ c :: behind)

def readTagText? (cs : List Char) : Option (String × List Char) := do
  let written := cs.takeWhile isTagChar
  let text ← unescaped? [] written
  if written.isEmpty then none else some (String.ofList text, cs.drop written.length)

/-- Reads a handle of the form `!name!`, and what is left. -/
def readHandle? : List Char → Option (String × List Char)
  | '!' :: cs =>
    match cs.dropWhile isNameChar with
    | '!' :: rest => some (String.ofList ('!' :: (cs.takeWhile isNameChar ++ ['!'])), rest)
    | _ => none
  | _ => none

def readTag? (cs : List Char) : Option (WrittenTag × List Char) := do
  let (tag, rest) ←
    match cs with
    | '!' :: '<' :: behind => do
      let (text, rest) ← readTagText? behind
      match rest with
      | '>' :: rest => some (⟨none, text⟩, rest)
      | _ => none
    | '!' :: behind =>
      if atBlank behind then some (⟨none, "!"⟩, behind)
      else do
        let (handle, rest) ←
          if (behind.takeWhile fun c => c != ' ' && !isBreak c).contains '!' then readHandle? cs
          else some ("!", behind)
        let (text, rest) ← readTagText? rest
        some (⟨some handle, text⟩, rest)
    | _ => none
  if atGap rest then some (tag, rest) else none

/-! ### Directives -/

/-- A directive: the version of the language, or what a handle of tags stands for; others have no
weight. -/
inductive Directive where
  | version (major : Nat)
  | handle (handle : String) (meaning : String)
  | other
deriving DecidableEq

/-- The value of a run of digits at the start of a text, and what is left. -/
def readVersionNumber? (cs : List Char) : Option (Nat × List Char) :=
  let digits := cs.takeWhile Char.isDigit
  if digits.isEmpty then none
  else
    some (digits.foldl (fun value c => 10 * value + (c.toNat - 48)) 0, cs.drop digits.length)

def readVersion? (cs : List Char) : Option (Directive × List Char) := do
  let (major, rest) ← readVersionNumber? (cs.dropWhile (· == ' '))
  match rest with
  | '.' :: rest => do
    let (_, rest) ← readVersionNumber? rest
    some (.version major, rest)
  | _ => none

/-- Reads what a handle stands for, behind a space. -/
def readMeaning? (handle : String) : List Char → Option (Directive × List Char)
  | ' ' :: rest => do
    let (meaning, rest) ← readTagText? (rest.dropWhile (· == ' '))
    some (.handle handle meaning, rest)
  | _ => none

def readHandleMeaning? (cs : List Char) : Option (Directive × List Char) :=
  match cs.dropWhile (· == ' ') with
  | '!' :: ' ' :: rest => readMeaning? "!" (' ' :: rest)
  | cs => do
    let (handle, rest) ← readHandle? cs
    readMeaning? handle rest

/-- Reads a directive with its line, from behind its percent sign on, and what is left. -/
def readDirective? (cs : List Char) : Option (Directive × List Char) := do
  let name := cs.takeWhile isNameChar
  let rest := cs.dropWhile isNameChar
  if name.isEmpty || !atGap rest then none
  else
    let (directive, rest) ←
      match String.ofList name with
      | "YAML" => readVersion? rest
      | "TAG" => readHandleMeaning? rest
      | _ => some (.other, lineEnd rest)
    let rest ← takeLineEnd? rest
    some (directive, rest)

end Rulebook.Yaml
