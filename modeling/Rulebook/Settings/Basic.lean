import Rulebook.RuleBase

/-!
# Settings

Settings of an engine: how many passes a run may take, what happens to duplicate rules, and whether
a rule is kept from firing again while the facts that its condition reads are unchanged. They are
read from plain data. Each setting is checked on its own, and all that is wrong is reported: the
settings in their fixed order, then keys that are no setting in the order of the data. Numbers and
truth values may be written as texts.
-/

namespace Rulebook

/-- Settings of an engine. At least one pass is allowed. -/
structure Settings where
  maxPasses : Nat
  duplicates : DuplicatePolicy
  refraction : Bool
  positive : 0 < maxPasses

/-- The settings where none are given. -/
def Settings.standard : Settings :=
  ⟨100, .reject, true, by decide⟩

instance : Inhabited Settings := ⟨Settings.standard⟩

end Rulebook

/-! ## Settings from plain data -/

namespace Rulebook.Settings

/-- What is wrong with a setting, or with the data as a whole. -/
inductive Problem where
  | notSettings
  | notACount
  | unreadableCount
  | countTooLong
  | countWithFraction
  | countNotFinite
  | countTooSmall
  | notAPolicy
  | notASwitch
  | unreadableSwitch
  | unknownKey
  | keyNotText
  | halfCharacters
deriving DecidableEq, Repr

def Problem.name : Problem → String
  | notSettings => "model_type"
  | notACount => "int_type"
  | unreadableCount => "int_parsing"
  | countTooLong => "int_parsing_size"
  | countWithFraction => "int_from_float"
  | countNotFinite => "finite_number"
  | countTooSmall => "greater_than_equal"
  | notAPolicy => "literal_error"
  | notASwitch => "bool_type"
  | unreadableSwitch => "bool_parsing"
  | unknownKey => "extra_forbidden"
  | keyNotText => "invalid_key"
  | halfCharacters => "string_unicode"

/-- A problem with the key at which it arose; none for the data as a whole. -/
structure Fault where
  problem : Problem
  key? : Option String
deriving DecidableEq, Repr

def withoutZeroFraction (cs : List Char) : List Char :=
  if (cs.dropWhile (· != '.')).drop 1 |>.all (· == '0') then cs.takeWhile (· != '.') else cs

def withoutPlus? : List Char → Option (List Char)
  | '+' :: '-' :: _ => none
  | '+' :: cs => some cs
  | cs => some cs

/-- What is left behind zeros and the underscores between them: a number from its first other digit
on, or from the character before its point. Of zeros alone the last character is left. -/
def withoutZeros? (last : Char) : List Char → Option (List Char)
  | [] => some [last]
  | c :: cs =>
    if c = '0' ∨ c = '_' then withoutZeros? c cs
    else if c = '.' then some (last :: c :: cs)
    else if c.isDigit then some (c :: cs)
    else none

/-- A count from its first digit that has weight on. A negative one is left as it is. -/
def significant? : List Char → Option (List Char)
  | '0' :: cs => withoutZeros? '0' cs
  | c :: cs => if c.isDigit || c == '-' then some (c :: cs) else none
  | [] => none

/-- Takes single underscores away, of which none stands at an end. -/
def joined? (cs : List Char) : Option (List Char) :=
  let pairs := cs.zip (cs.drop 1)
  if cs.head? = some '_' || cs.getLast? = some '_' || pairs.contains ('_', '_') then none
  else some (cs.filter (· != '_'))

/-- A count written as a text: white space around it, a sign, zeros, digits that single underscores
may separate, and a fraction of zeros. -/
def readCount (text : String) : Except Problem Int :=
  let digits? := do
    let cs ← withoutPlus? (Number.stripSpace text.toList)
    let cs ← significant? cs
    joined? (withoutZeroFraction cs)
  match digits? with
  | none => .error .unreadableCount
  | some cs =>
    let (negative, digits) := Number.readSign cs
    let hasZero := digits.head? = some '0' && digits.length ≠ 1
    if digits.isEmpty || hasZero || !digits.all Char.isDigit then .error .unreadableCount
    else if Number.digitBound < digits.length then .error .countTooLong
    else .ok (Number.withSign negative (Text.digitsValue digits))

/-- Reads a setting from a datum that is a text; bytes count as the text that they encode. The two
problems are for bytes that encode none, and for data that are no texts. -/
def readText {α : Type} (read : String → Except Problem α) (noText notWritten : Problem) :
    Plain → Except Problem α
  | .text text => read text
  | .foreign (.bytes data) =>
    match String.fromUTF8? ⟨data.toArray⟩ with
    | some text => read text
    | none => .error noText
  | .foreign (.halfText _) => .error .halfCharacters
  | _ => .error notWritten

/-- Whole floating-point numbers from this magnitude on are refused as counts. -/
def floatCountBound : Nat := 0x8000000000000000

def toCount : Plain → Except Problem Int
  | .integer n => .ok n
  | .bool holds => .ok (Plain.bit holds)
  | .real x =>
    match Number.parts x, Number.whole? x with
    | .finite .., some n => if n.natAbs < floatCountBound then .ok n else .error .countTooLong
    | .finite .., none => .error .countWithFraction
    | _, _ => .error .countNotFinite
  | datum => readText readCount .unreadableCount .notACount datum

/-- A datum as the greatest number of passes. -/
def toMaxPasses (datum : Plain) : Except Problem { n : Nat // 0 < n } :=
  match toCount datum with
  | .error problem => .error problem
  | .ok n => if positive : 0 < n.toNat then .ok ⟨n.toNat, positive⟩ else .error .countTooSmall

def toPolicy (datum : Plain) : Except Problem DuplicatePolicy :=
  match datum with
  | .text name =>
    match DuplicatePolicy.ofName? name with
    | some policy => .ok policy
    | none => .error .notAPolicy
  | _ => .error .notAPolicy

/-- The words that switch something on, in lower case. -/
def onWords : List String := ["true", "t", "yes", "y", "on", "1"]

/-- The words that switch something off, in lower case. -/
def offWords : List String := ["false", "f", "no", "n", "off", "0"]

/-- A switch written as a word, in any case of its letters. -/
def readSwitch (text : String) : Except Problem Bool :=
  let word := String.ofList (text.toList.map Char.toLower)
  if onWords.contains word then .ok true
  else if offWords.contains word then .ok false
  else .error .unreadableSwitch

/-- Integers that need more than 64 binary digits are no switches at all. -/
def isShort (n : Int) : Bool :=
  -(floatCountBound : Int) ≤ n && n < (floatCountBound : Int)

def toSwitch : Plain → Except Problem Bool
  | .bool holds => .ok holds
  | .integer n =>
    if n = 1 then .ok true
    else if n = 0 then .ok false
    else .error (if isShort n then .unreadableSwitch else .notASwitch)
  | .real x => if x == 1 then .ok true else if x == 0 then .ok false else .error .notASwitch
  | datum => readText readSwitch .unreadableSwitch .notASwitch datum

def keys : List String := ["max_iterations", "duplicate_policy", "refraction"]

/-- A setting, or its standard value where the data have none. -/
def setting {α : Type} (entries : List (Plain × Plain)) (key : String) (standard : α)
    (read : Plain → Except Problem α) : Except Fault α :=
  match Plain.lookup? key entries with
  | none => .ok standard
  | some datum => (read datum).mapError fun problem => ⟨problem, some key⟩

/-- How a key that is no text is reported: truth values count as the integers one and zero. -/
def keyText : Plain → String
  | .bool holds => toString (Plain.bit holds)
  | key => key.shown

def keyFault? : Plain → Option Fault
  | .text key => if keys.contains key then none else some ⟨.unknownKey, some key⟩
  | key => some ⟨.keyNotText, some (keyText key)⟩

/-- The fault of a setting, if it has one. -/
def faultOf {α : Type} : Except Fault α → List Fault
  | .ok _ => []
  | .error fault => [fault]

/-- Settings from plain data, or all that is wrong with the data. -/
def ofPlain : Plain → Except (List Fault) Settings
  | .mapping entries =>
    let standard := Settings.standard
    let maxPasses :=
      setting entries "max_iterations" ⟨standard.maxPasses, standard.positive⟩ toMaxPasses
    let duplicates := setting entries "duplicate_policy" standard.duplicates toPolicy
    let refraction := setting entries "refraction" standard.refraction toSwitch
    let extra := entries.filterMap fun found => keyFault? found.1
    match maxPasses, duplicates, refraction, extra with
    | .ok count, .ok policy, .ok holds, [] => .ok ⟨count.1, policy, holds, count.2⟩
    | _, _, _, _ =>
      .error (faultOf maxPasses ++ faultOf duplicates ++ faultOf refraction ++ extra)
  | _ => .error [⟨.notSettings, none⟩]

/-- Settings from plain data; the standard ones where none are given. -/
def ofPlainOrStandard : Plain → Except (List Fault) Settings
  | .none => .ok standard
  | datum => ofPlain datum

end Rulebook.Settings
