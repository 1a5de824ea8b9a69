import Rulebook.Table

/-!
# Fact values

Fact values: numbers, strings, truth values, objects, arrays and null. An object keeps its fields
in the order in which they were first given; equality does not depend on that order.
-/

namespace Rulebook

/-- A fact value. -/
inductive Value where
  | number (x : Float)
  | string (text : String)
  | bool (holds : Bool)
  | object (fields : List (String × Value))
  | array (items : List Value)
  | null
deriving Inhabited

/-- The kinds of value that a fact can have. -/
inductive Kind where
  | number
  | string
  | bool
  | object
  | array
  | null
deriving DecidableEq, Repr

def Kind.name : Kind → String
  | .number => "number"
  | .string => "string"
  | .bool => "bool"
  | .object => "object"
  | .array => "array"
  | .null => "null"

namespace Value

def kind : Value → Kind
  | number _ => .number
  | string _ => .string
  | bool _ => .bool
  | object _ => .object
  | array _ => .array
  | null => .null

mutual

/-- Structural equality. Numbers are compared as numbers, so a zero equals the negative zero and
what is not a number equals nothing; values of different kinds are never equal. -/
def same : Value → Value → Bool
  | number x, number y => x == y
  | string s, string t => s == t
  | bool a, bool b => a == b
  | object fields, object others =>
    fields.length == others.length && sameFields fields others
  | array items, array others => sameItems items others
  | null, null => true
  | _, _ => false

/-- Equality of arrays, place by place. -/
def sameItems : List Value → List Value → Bool
  | [], [] => true
  | item :: items, other :: others => same item other && sameItems items others
  | _, _ => false

/-- Whether each field has an equal one of the same name among others. -/
def sameFields : List (String × Value) → List (String × Value) → Bool
  | [], _ => true
  | (name, value) :: fields, others =>
    (match Entries.get? name others with
      | some other => same value other
      | none => false) && sameFields fields others

end

/-- Whether a value counts as true: zero, null and empty texts, objects and arrays do not. -/
def isTruthy : Value → Bool
  | number x => !(x == 0)
  | string text => !text.isEmpty
  | bool holds => holds
  | object fields => !fields.isEmpty
  | array items => !items.isEmpty
  | null => false

/-- Why a part of a value cannot be read or written. -/
inductive Fault where
  | noFieldsIn (kind : Kind) (field : String)
  | fieldMissing (field : String)
  | noElementsIn (kind : Kind)
  | indexOutOfRange (index : Int) (length : Nat)
  | fieldNotSettable (kind : Kind) (field : String)
deriving DecidableEq, Repr

def Fault.code : Fault → String
  | .noFieldsIn .. | .noElementsIn _ | .fieldNotSettable .. => "type_mismatch"
  | .fieldMissing _ => "field_not_found"
  | .indexOutOfRange .. => "index_out_of_range"

def Fault.message : Fault → String
  | .noFieldsIn kind field => "Cannot access field '" ++ field ++ "' on " ++ kind.name
  | .fieldMissing field => "Field '" ++ field ++ "' not found"
  | .noElementsIn kind => "Cannot index into " ++ kind.name
  | .indexOutOfRange index length =>
    "Index " ++ toString index ++ " out of range for array of length " ++ toString length
  | .fieldNotSettable kind field => "Cannot set field '" ++ field ++ "' on " ++ kind.name

def field (value : Value) (name : String) : Except Fault Value :=
  match value with
  | object fields =>
    match Entries.get? name fields with
    | some found => .ok found
    | none => .error (.fieldMissing name)
  | _ => .error (.noFieldsIn value.kind name)

/-- An element of an array, counted from zero; there are no places before the first. -/
def element (value : Value) (index : Int) : Except Fault Value :=
  match value with
  | array items =>
    if index < 0 then .error (.indexOutOfRange index items.length)
    else
      match items[index.toNat]? with
      | some found => .ok found
      | none => .error (.indexOutOfRange index items.length)
  | _ => .error (.noElementsIn value.kind)

end Value

end Rulebook
