import Rulebook.Calendar.Moment
import Rulebook.Text.Encoding

/-!
# Foreign data

Data that have no place among fact values: bytes, days, moments, sets, texts with halves of
characters, and data of which no more than the type is known.
-/

namespace Rulebook

/-- A datum that can be no fact value. Of a set it only matters whether it has members. -/
inductive Foreign where
  | bytes (data : List UInt8)
  | date (date : Date)
  | moment (moment : Moment)
  | set (isEmpty : Bool)
  | halfText (half : Text.HalfText)
  | other (typeName : String)

namespace Foreign

def typeName : Foreign → String
  | bytes _ => "bytes"
  | date _ => "date"
  | moment _ => "datetime"
  | set _ => "set"
  | halfText _ => "str"
  | other name => name

/-- Whether a datum counts as true: without bytes or members it does not. -/
def isTruthy : Foreign → Bool
  | bytes data => !data.isEmpty
  | set isEmpty => !isEmpty
  | _ => true

/-- Whether a datum may be the key of a mapping; a set may not, since it can change. -/
def isKey : Foreign → Bool
  | set _ => false
  | _ => true

/-- Whether two data are the same key. -/
def same : Foreign → Foreign → Bool
  | bytes left, bytes right => left == right
  | date left, date right => left == right
  | moment left, moment right => left.same right
  | halfText left, halfText right => left == right
  | _, _ => false

end Foreign

end Rulebook
