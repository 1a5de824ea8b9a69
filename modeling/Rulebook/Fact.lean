import Rulebook.Plain.Conversion
import Rulebook.Store

/-!
# Facts

Facts: named values. A fact is made from plain data of any type, or from data that are first
turned into the kind that is asked for. A store is shown with all its facts.
-/

namespace Rulebook

/-- A named value. -/
structure Fact where
  name : String
  value : Value

namespace Fact

def ofPlain (name : String) (datum : Plain) : Except Plain.Fault Fact :=
  datum.toValue.map (⟨name, ·⟩)

/-- A fact of a given kind, from plain data that can be turned into that kind. -/
def ofKind (kind : Kind) (name : String) (datum : Plain) : Except Plain.Fault Fact :=
  match kind with
  | .number => datum.toReal.map fun x => ⟨name, .number x⟩
  | .string => .ok ⟨name, .string datum.toText⟩
  | .bool => .ok ⟨name, .bool datum.isTruthy⟩
  | .object => do ofPlain name (← datum.toMapping)
  | .array => do ofPlain name (.list (← datum.members))
  | .null => .ok ⟨name, .null⟩

/-- Why a field of a fact cannot be set: the fact is no object, or the datum is no fact value. -/
inductive SetFault where
  | notAnObject (fact : String) (field : String)
  | datum (fault : Plain.Fault)

def SetFault.message? : SetFault → Option String
  | notAnObject fact field =>
    some ("Cannot set field '" ++ field ++ "' on non-object fact '" ++ fact ++ "'")
  | datum fault => fault.message?

def setField (fact : Fact) (field : String) (datum : Plain) : Except SetFault Fact :=
  match fact.value with
  | .object fields =>
    match datum.toValue with
    | .ok value => .ok { fact with value := .object (Entries.set field value fields) }
    | .error fault => .error (.datum fault)
  | _ => .error (.notAnObject fact.name field)

end Fact

def Store.shown (store : Store) : String :=
  "FactStore(" ++ (Plain.ofValue store.toObject).shown ++ ")"

end Rulebook
