import Rulebook.Plain.Key

/-!
# Operations on plain data

The operations on fact values, on data that were not turned into fact values first. A datum that
is no fact value is a fault when, and only when, the operation comes upon it.
-/

namespace Rulebook.Plain

/-- The kind of fact value that a datum is. -/
def kind : Plain → Except Fault Kind
  | none => .ok .null
  | bool _ => .ok .bool
  | real _ => .ok .number
  | text _ => .ok .string
  | list _ => .ok .array
  | mapping _ => .ok .object
  | datum => .error (.unsupported datum.typeName)

mutual

/-- Structural equality. The comparison ends at the first difference. -/
def same (left right : Plain) : Except Fault Bool := do
  let leftKind ← left.kind
  let rightKind ← right.kind
  if leftKind ≠ rightKind then .ok false
  else
    match left, right with
    | real x, real y => .ok (x == y)
    | text s, text t => .ok (s == t)
    | bool a, bool b => .ok (a == b)
    | list items, list others => sameItems items others
    | mapping entries, mapping others =>
      if entries.length == others.length &&
          entries.all (fun found => (findKey? found.1 others).isSome) then
        sameEntries entries others
      else .ok false
    | _, _ => .ok true
termination_by sizeOf left

/-- Equality of lists, place by place. -/
def sameItems (items others : List Plain) : Except Fault Bool :=
  match items, others with
  | [], [] => .ok true
  | item :: items, other :: others =>
    if items.length ≠ others.length then .ok false
    else do
      if ← same item other then sameItems items others else .ok false
  | _, _ => .ok false
termination_by sizeOf items

/-- Whether each entry equals the one under the same key among others. -/
def sameEntries (entries others : List (Plain × Plain)) : Except Fault Bool :=
  match entries with
  | [] => .ok true
  | (key, datum) :: entries =>
    match findKey? key others with
    | some other => do
      if ← same datum other then sameEntries entries others else .ok false
    | Option.none => .ok false
termination_by sizeOf entries

end

def isTruthyValue (datum : Plain) : Except Fault Bool :=
  datum.kind.map fun _ => datum.isTruthy

/-- Why a part of a datum cannot be read: the datum is no fact value, or it has no such part. -/
inductive PartFault where
  | datum (fault : Fault)
  | part (fault : Value.Fault)

def field (datum : Plain) (name : String) : Except PartFault Plain :=
  match datum.kind, datum with
  | .error fault, _ => .error (.datum fault)
  | .ok _, mapping entries =>
    match lookup? name entries with
    | some found => .ok found
    | Option.none => .error (.part (.fieldMissing name))
  | .ok kind, _ => .error (.part (.noFieldsIn kind name))

def element (datum : Plain) (index : Int) : Except PartFault Plain :=
  match datum.kind, datum with
  | .error fault, _ => .error (.datum fault)
  | .ok _, list items =>
    match if index < 0 then Option.none else items[index.toNat]? with
    | some found => .ok found
    | Option.none => .error (.part (.indexOutOfRange index items.length))
  | .ok kind, _ => .error (.part (.noElementsIn kind))

end Rulebook.Plain
