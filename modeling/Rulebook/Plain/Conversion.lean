import Rulebook.Plain.Display
import Rulebook.Plain.Key
import Rulebook.Number.Reading

/-!
# Conversion of plain data

Turning plain data into what is asked for: integers, floating-point numbers, texts, lists, mappings.
-/

namespace Rulebook.Plain

/-- A datum as an integer: a floating-point number loses its fraction, a text is read. -/
def toInteger : Plain → Except Fault Int
  | integer n => .ok n
  | bool holds => .ok (bit holds)
  | real x =>
    match Number.truncated? x with
    | some n => .ok n
    | Option.none => .error (if x.isNaN then .unreadable else .outOfRange)
  | text s =>
    match Number.readInteger? s.toList with
    | some n => .ok n
    | Option.none => .error .unreadable
  | _ => .error .wrongType

/-- A datum as a floating-point number: an integer is rounded to the nearest, a text is read. -/
def toReal : Plain → Except Fault Float
  | real x => .ok x
  | integer n =>
    match Number.ofInt? n with
    | some x => .ok x
    | Option.none => .error .outOfRange
  | bool holds => .ok (if holds then 1 else 0)
  | text s =>
    match Number.readFloat? s.toList with
    | some x => .ok x
    | Option.none => .error .unreadable
  | _ => .error .wrongType

/-- A datum as a text: a text is itself, all else is shown as in messages. -/
def toText : Plain → String
  | text s => s
  | datum => datum.shown

/-- A character of a text, or the half that stands in its place, as a text of its own. -/
def ofPart : Char × Option Nat → Plain
  | (c, Option.none) => text (String.singleton c)
  | (c, some half) => foreign (.halfText ⟨String.singleton c, [(0, half)]⟩)

/-- The members of a datum: those of a list or tuple, the characters of a text, the keys of a
mapping, and bytes as integers. -/
def members : Plain → Except Fault (List Plain)
  | list items | tuple items => .ok items
  | text s => .ok (s.toList.map fun c => text (String.singleton c))
  | mapping entries => .ok (entries.map Prod.fst)
  | foreign (.bytes data) => .ok (data.map fun byte => integer byte.toNat)
  | foreign (.halfText half) => .ok (half.parts.map ofPart)
  | foreign (.set true) => .ok []
  | _ => .error .wrongType

/-- A datum as an entry of a mapping: it has two members, a key and what stands under it. -/
def toEntry (datum : Plain) : Except Fault (Plain × Plain) := do
  match ← datum.members with
  | [key, entry] => if key.isKey then .ok (key, entry) else .error .wrongType
  | _ => .error .unreadable

/-- A datum as a mapping: a mapping is itself, the members of all else are entries. -/
def toMapping (datum : Plain) : Except Fault Plain :=
  match datum with
  | mapping entries => .ok (mapping entries)
  | _ => do
    let items ← datum.members
    let entries ← items.mapM toEntry
    .ok (mapping (entries.foldl (fun table entry => setEntry entry.1 entry.2 table) []))

end Rulebook.Plain
