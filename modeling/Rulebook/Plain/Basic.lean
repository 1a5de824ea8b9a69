import Rulebook.Value.Basic
import Rulebook.Number.Binary64
import Rulebook.Plain.Foreign

/-!
# Plain data

Plain data, as an application hands it in: richer than fact values, since integers are told from
floating-point numbers, tuples from lists, keys of mappings need not be texts, and a datum may be
of a type that no rule can use.
-/

namespace Rulebook

/-- A plain datum. -/
inductive Plain where
  | none
  | bool (holds : Bool)
  | integer (n : Int)
  | real (x : Float)
  | text (text : String)
  | list (items : List Plain)
  | tuple (items : List Plain)
  | mapping (entries : List (Plain × Plain))
  | foreign (datum : Foreign)
deriving Inhabited

namespace Plain

def typeName : Plain → String
  | none => "NoneType"
  | bool _ => "bool"
  | integer _ => "int"
  | real _ => "float"
  | text _ => "str"
  | list _ => "list"
  | tuple _ => "tuple"
  | mapping _ => "dict"
  | foreign datum => datum.typeName

/-- The entry of a mapping under a text. -/
def lookup? (name : String) : List (Plain × Plain) → Option Plain
  | [] => Option.none
  | (text key, datum) :: entries => if key = name then some datum else lookup? name entries
  | _ :: entries => lookup? name entries

/-- Whether a datum counts as true: none, zero and empty collections do not. -/
def isTruthy : Plain → Bool
  | none => false
  | bool holds => holds
  | integer n => n != 0
  | real x => !(x == 0)
  | text s => !s.isEmpty
  | list items | tuple items => !items.isEmpty
  | mapping entries => !entries.isEmpty
  | foreign datum => datum.isTruthy

/-- Why a datum is no fact value, or cannot be turned into what is asked for. -/
inductive Fault where
  | unsupported (typeName : String)
  | keyNotText (typeName : String)
  | outOfRange
  | wrongType
  | unreadable
deriving DecidableEq, Repr

def Fault.message? : Fault → Option String
  | .unsupported typeName => some ("Unsupported fact value type: " ++ typeName)
  | .keyNotText typeName => some ("Object keys must be strings, got " ++ typeName)
  | .outOfRange | .wrongType | .unreadable => Option.none

mutual

/-- A datum as a fact value: integers become floating-point numbers and tuples arrays. -/
def toValue : Plain → Except Fault Value
  | none => .ok .null
  | bool holds => .ok (.bool holds)
  | integer n =>
    match Number.ofInt? n with
    | some x => .ok (.number x)
    | Option.none => .error .outOfRange
  | real x => .ok (.number x)
  | text s => .ok (.string s)
  | list items => (itemsToValues items).map .array
  | tuple items => (itemsToValues items).map .array
  | mapping entries => (entriesToFields entries).map fun fields => .object (Entries.ofList fields)
  | foreign datum => .error (.unsupported datum.typeName)

/-- Data as fact values, the first fault first. -/
def itemsToValues : List Plain → Except Fault (List Value)
  | [] => .ok []
  | item :: items => do
    let value ← item.toValue
    let values ← itemsToValues items
    .ok (value :: values)

/-- Entries as fields. Of each entry the key is checked before the datum. -/
def entriesToFields : List (Plain × Plain) → Except Fault (List (String × Value))
  | [] => .ok []
  | (text key, item) :: entries => do
    let value ← item.toValue
    let fields ← entriesToFields entries
    .ok ((key, value) :: fields)
  | (key, _) :: _ => .error (.keyNotText key.typeName)

end

mutual

/-- A fact value as a datum. -/
def ofValue : Value → Plain
  | .number x => real x
  | .string s => text s
  | .bool holds => bool holds
  | .object fields => mapping (ofFields fields)
  | .array items => list (ofItems items)
  | .null => none

/-- Fact values as data. -/
def ofItems : List Value → List Plain
  | [] => []
  | item :: items => ofValue item :: ofItems items

def ofFields : List (String × Value) → List (Plain × Plain)
  | [] => []
  | (name, value) :: fields => (text name, ofValue value) :: ofFields fields

end

end Plain

end Rulebook
