import Rulebook.Plain.Key
import Rulebook.Text.Encoding
import Rulebook.Yaml.Number

/-!
# YAML nodes

Nodes of a YAML document: scalars, sequences and mappings, each with its type and with the datum
that it stands for. The datum of a collection is made from those of its members when the node is
made.

Collections are filled one level after the other, from the root on. So of several faults the one
that is nearest to the root counts, and among those of one level the first.
-/

namespace Rulebook.Yaml

/-- A fault, with the number of levels below the node at which it arises. -/
structure Late where
  level : Nat
  fault : Fault
deriving DecidableEq

def Late.here (fault : Fault) : Late :=
  ⟨0, fault⟩

def Late.below (late : Late) : Late :=
  ⟨late.level + 1, late.fault⟩

/-- The fault that counts: the nearest, and of several the first. -/
def Late.first? : List Late → Option Late
  | [] => none
  | late :: more =>
    match first? more with
    | some other => some (if other.level < late.level then other else late)
    | none => some late

/-- The datum that a node stands for, or why there is none. -/
abbrev Outcome := Except Late Plain

def faultOf? : Outcome → Option Late
  | .ok _ => none
  | .error late => some late

def datumOf? : Outcome → Option Plain
  | .ok datum => some datum
  | .error _ => none

/-- A node with its type and the datum that it stands for. A mapping has its entries as they are
written, the text under its standard key, and its entries with those that are merged into it, which
are missing if what is to be merged is no mapping. -/
inductive Node where
  | scalar (tag : Tag) (text : String) (outcome : Outcome)
  | sequence (tag : Tag) (items : List Node) (outcome : Outcome)
  | mapping (tag : Tag) (entries : List (Node × Node)) (text? : Option String)
      (merged? : Option (List (Node × Node))) (outcome : Outcome)

namespace Node

def tag : Node → Tag
  | scalar tag .. | sequence tag .. | mapping tag .. => tag

/-- The datum that a node stands for, or why there is none. -/
def outcome : Node → Outcome
  | scalar _ _ outcome | sequence _ _ outcome | mapping _ _ _ _ outcome => outcome

/-- The text of a scalar; a mapping has that of its standard key. -/
def text? : Node → Option String
  | scalar _ text _ => some text
  | sequence .. => none
  | mapping _ _ text? _ _ => text?

/-! ### Scalars -/

/-- The truth value that a word stands for, in any case of its letters. -/
def truthOf (text : String) : Except Fault Plain :=
  let word := String.ofList (text.toList.map Char.toLower)
  if ["yes", "true", "on"].contains word then .ok (.bool true)
  else if ["no", "false", "off"].contains word then .ok (.bool false)
  else .error .notATruthValue

def bytesOf (text : String) : Except Fault Plain :=
  match Text.decodeBase64? text.toList with
  | some data =>
    if text.toList.all fun c => c.toNat < 128 then .ok (.foreign (.bytes data))
    else .error .unreadable
  | none => .error .unreadable

def timeOf (text : String) : Except Fault Plain :=
  match Calendar.read? (withoutLineFeed text.toList) with
  | none => .error .notATime
  | some written =>
    let foreign? :=
      match written.time? with
      | none => written.date?.map Foreign.date
      | some time => (written.moment? time).map Foreign.moment
    match foreign? with
    | some datum => .ok (.foreign datum)
    | none => .error .noSuchValue

def datumOfText (tag : Tag) (text : String) : Except Fault Plain :=
  match tag with
  | .null => .ok .none
  | .truth => truthOf text
  | .integer => (integerOf text).map Plain.integer
  | .real => (realOf text).map Plain.real
  | .text => .ok (.text text)
  | .bytes => bytesOf text
  | .time => timeOf text
  | _ => .error .unreadable

/-- The types of collections. Whether a node is of such a type shows when it is filled. -/
def isCollection (tag : Tag) : Bool :=
  [Tag.list, .mapping, .set, .orderedMapping, .pairs].contains tag

def outcomeOfText (tag : Tag) (text? : Option String) : Outcome :=
  if isCollection tag then .error (Late.here .unreadable).below
  else
    match text? with
    | some text => (datumOfText tag text).mapError Late.here
    | none => .error (.here .unreadable)

def ofText (tag : Tag) (text : String) : Node :=
  scalar tag text (outcomeOfText tag (some text))

/-- A scalar with halves of characters. Only as a text they are kept. -/
def ofHalfText (tag : Tag) (half : Text.HalfText) : Node :=
  if tag = .text then scalar tag half.text (.ok (.foreign (.halfText half)))
  else ofText tag half.text

/-! ### Sequences -/

/-- The datum of a collection that is filled with members, or why it cannot be. -/
def filled (outcomes : List Outcome) (fill : List Plain → Plain) : Outcome :=
  match Late.first? (outcomes.filterMap faultOf?) with
  | some late => .error late.below
  | none => .ok (fill (outcomes.filterMap datumOf?))

def outcomesOfPair (node : Node) : List Outcome :=
  match node with
  | mapping _ [(key, value)] _ _ _ => [key.outcome, value.outcome]
  | _ => [.error (.here .unreadable)]

def pairUp : List Plain → List Plain
  | key :: value :: data => .tuple [key, value] :: pairUp data
  | _ => []

/-- A sequence. One of pairs holds mappings with one entry each. -/
def ofItems (tag : Tag) (items : List Node) : Node :=
  sequence tag items <|
    match tag with
    | .list => filled (items.map outcome) .list
    | .orderedMapping | .pairs =>
      filled (items.flatMap outcomesOfPair) fun data => .list (pairUp data)
    | _ => outcomeOfText tag none

/-! ### Mappings -/

def givenEntries? : Node → Option (List (Node × Node))
  | mapping _ _ _ merged? _ => merged?
  | _ => none

/-- The entries that are merged into a mapping for a node under a key for that: those of a mapping,
or of all mappings in a sequence, of which the earlier ones go before the later ones. -/
def entriesToMerge? : Node → Option (List (Node × Node))
  | sequence _ items _ => do
    let found ← items.mapM givenEntries?
    some found.reverse.flatten
  | node => givenEntries? node

def mergeEntries? (entries : List (Node × Node)) : Option (List (Node × Node)) := do
  let (merges, own) := entries.partition fun entry => entry.1.tag == .merge
  let found ← merges.mapM fun entry => entriesToMerge? entry.2
  some (found.flatten ++ own)

def standardText? (entries : List (Node × Node)) : Option String :=
  (entries.find? fun entry => entry.1.tag == .standardValue).bind fun entry => entry.2.text?

/-- The key that a node stands for. The standard key is a text, and collections are no keys. -/
def outcomeOfKey (key : Node) : Outcome :=
  let outcome := if key.tag = .standardValue then outcomeOfText .text key.text? else key.outcome
  match outcome with
  | .ok datum => if datum.isKey then .ok datum else .error (.here .unreadable)
  | .error late => .error (.here (if late.level = 0 then late.fault else .unreadable))

def outcomesOfEntry (entry : Node × Node) : List Outcome :=
  [outcomeOfKey entry.1, entry.2.outcome]

/-- Keys and data put together to entries. Of several entries under one key the last counts. -/
def entriesOf (entries : List (Plain × Plain)) : List Plain → List (Plain × Plain)
  | key :: value :: data => entriesOf (Plain.setEntry key value entries) data
  | _ => entries

/-- The datum of a collection that is filled with the entries of a mapping. -/
def filledByEntries (merged? : Option (List (Node × Node)))
    (fill : List (Plain × Plain) → Plain) : Outcome :=
  match merged? with
  | some entries => filled (entries.flatMap outcomesOfEntry) fun data => fill (entriesOf [] data)
  | none => .error (Late.here .unreadable).below

/-- The datum of a mapping of a type. Its entries do not matter for the types of scalars; for a day
or a moment its text must not stand for all of it. -/
def outcomeOfMapping (tag : Tag) (text? : Option String)
    (merged? : Option (List (Node × Node))) : Outcome :=
  match tag with
  | .mapping => filledByEntries merged? .mapping
  | .set => filledByEntries merged? fun entries => .foreign (.set entries.isEmpty)
  | .time => .error (.here (if text?.isSome then .timeNotText else .unreadable))
  | _ => outcomeOfText tag text?

def ofEntries (tag : Tag) (entries : List (Node × Node)) : Node :=
  let text? := standardText? entries
  let merged? := mergeEntries? entries
  mapping tag entries text? merged? (outcomeOfMapping tag text? merged?)

end Node

end Rulebook.Yaml
