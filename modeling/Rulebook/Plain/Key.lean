import Rulebook.Plain.Basic

/-!
# Keys of mappings

Keys of mappings. Numbers and truth values are the same key if they are the same number; lists,
mappings and sets are no keys.
-/

namespace Rulebook.Plain

/-- A truth value as a number. -/
def bit (holds : Bool) : Int :=
  if holds then 1 else 0

mutual

def isKey : Plain → Bool
  | list _ | mapping _ => false
  | tuple items => areKeys items
  | foreign datum => datum.isKey
  | _ => true

/-- Whether several data may be keys of a mapping. -/
def areKeys : List Plain → Bool
  | [] => true
  | item :: items => item.isKey && areKeys items

end

/-- The integer that a number or truth value is. -/
def asInteger? : Plain → Option Int
  | bool holds => some (bit holds)
  | integer n => some n
  | real x => Number.whole? x
  | _ => Option.none

mutual

def sameKey : Plain → Plain → Bool
  | none, none => true
  | text s, text t => s == t
  | tuple items, tuple others => sameKeys items others
  | foreign datum, foreign other => datum.same other
  | left, right =>
    match left.asInteger?, right.asInteger?, left, right with
    | some m, some n, _, _ => m == n
    | _, _, real x, real y => x == y || (x.isNaN && y.isNaN)
    | _, _, _, _ => false

/-- Whether two runs of data are the same keys, place by place. -/
def sameKeys : List Plain → List Plain → Bool
  | [], [] => true
  | item :: items, other :: others => sameKey item other && sameKeys items others
  | _, _ => false

end

def findKey? (key : Plain) (entries : List (Plain × Plain)) : Option Plain :=
  (entries.find? fun found => sameKey found.1 key).map Prod.snd

/-- Puts an entry into a mapping: in the place of the one under the same key, or behind all. -/
def setEntry (key datum : Plain) : List (Plain × Plain) → List (Plain × Plain)
  | [] => [(key, datum)]
  | (found, old) :: entries =>
    if sameKey found key then (found, datum) :: entries
    else (found, old) :: setEntry key datum entries

end Rulebook.Plain
