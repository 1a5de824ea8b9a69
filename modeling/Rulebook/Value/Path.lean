import Rulebook.Value.Basic

/-!
# Paths

Paths into a value, and writing at the end of one. Every step but the last must lead to a part
that is there; the last one may give an object a new field.
-/

namespace Rulebook

/-- One step into a value: to a field of an object or to an element of an array. -/
inductive Step where
  | field (name : String)
  | element (index : Int)
deriving DecidableEq, Repr

namespace Value

def child (value : Value) : Step → Except Fault Value
  | .field name => value.field name
  | .element index => value.element index

def follow (value : Value) : List Step → Except Fault Value
  | [] => .ok value
  | step :: steps => do (← value.child step).follow steps

/-- Puts a part in the place that a step leads to. A field may be new, an element may not. -/
def replace (value : Value) (step : Step) (part : Value) : Except Fault Value :=
  match step with
  | .field name =>
    match value with
    | object fields => .ok (object (Entries.set name part fields))
    | _ => .error (.fieldNotSettable value.kind name)
  | .element index =>
    match value with
    | array items =>
      if index < 0 || items.length ≤ index.toNat then
        .error (.indexOutOfRange index items.length)
      else .ok (array (items.set index.toNat part))
    | _ => .error (.noElementsIn value.kind)

/-- Writes a part at the end of a path; the empty path leads to the value itself. -/
def write (value : Value) : List Step → Value → Except Fault Value
  | [], part => .ok part
  | [step], part => value.replace step part
  | step :: steps, part => do
    let inner ← (← value.child step).write steps part
    value.replace step inner

end Value

end Rulebook
