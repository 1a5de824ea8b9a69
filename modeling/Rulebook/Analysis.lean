import Rulebook.Expr.Walk
import Rulebook.Rule.Basic

/-!
# Analysis of rules

Analysis of a set of rules for likely mistakes: rules that can never fire, rules that write facts
which their own condition reads, and rules of one salience that write the same fact, so that the
order in which they were added decides its value.
-/

namespace Rulebook

/-- The facts that a rule's condition reads and its actions write, each list in order. -/
structure Footprint where
  rule : String
  salience : Int
  reads : List String
  writes : List String
deriving DecidableEq, Repr

namespace Footprint

/-- The footprint of a rule; none when it assigns to something that is no path. -/
def ofRule? (rule : Rule) : Option Footprint :=
  (Expr.assignedFacts? rule.actions).map fun writes =>
    ⟨rule.name, rule.salience, rule.condition.references.mergeSort, writes.mergeSort⟩

/-- The facts that a rule both reads and writes. -/
def shared (footprint : Footprint) : List String :=
  footprint.reads.filter footprint.writes.contains

/-- The facts that two rules both write. -/
def contested (footprint other : Footprint) : List String :=
  footprint.writes.filter other.writes.contains

end Footprint

/-- Two rules of one salience that both write a fact; the one that was listed first stands first. -/
structure Conflict where
  first : String
  second : String
  fact : String
deriving DecidableEq, Repr

namespace Conflict

/-- The conflicts of a rule with rules behind it. -/
def among (first : Footprint) (others : List Footprint) : List Conflict :=
  others.flatMap fun second =>
    if first.salience = second.salience then
      (first.contested second).map fun fact => ⟨first.rule, second.rule, fact⟩
    else []

/-- The conflicts of all pairs of rules. -/
def all : List Footprint → List Conflict
  | [] => []
  | first :: others => among first others ++ all others

def warning (conflict : Conflict) : String :=
  "Rules '" ++ conflict.first ++ "' and '" ++ conflict.second ++
    "' share salience and both write '" ++ conflict.fact ++ "'"

end Conflict

/-- The result of an analysis. -/
structure Analysis where
  total : Nat
  dead : List String
  selfTriggering : List String
  conflicts : List Conflict
  footprints : List Footprint
  warnings : List String

namespace Analysis

abbrev Footed := Rule × Footprint

/-- Whether a rule can never fire. -/
def isDead (footed : Footed) : Bool :=
  footed.1.condition.isAlwaysFalse

/-- Whether a rule writes facts that its condition reads. -/
def isSelfTriggering (footed : Footed) : Bool :=
  !footed.2.shared.isEmpty

def ruleWarnings (footed : Footed) : List String :=
  (if isDead footed then ["Rule '" ++ footed.1.name ++ "' can never fire"] else []) ++
    if isSelfTriggering footed then
      ["Rule '" ++ footed.1.name ++ "' writes facts its condition reads: " ++
        ", ".intercalate footed.2.shared]
    else []

/-- The names of the rules that a check picks out. -/
def namesOf (check : Footed → Bool) (footed : List Footed) : List String :=
  (footed.filter check).map fun rule => rule.1.name

/-- Analyses rules in the order in which they are listed; none when one of them assigns to
something that is no path. -/
def ofRules? (rules : List Rule) : Option Analysis := do
  let footprints ← rules.mapM Footprint.ofRule?
  let footed := rules.zip footprints
  let conflicts := Conflict.all footprints
  some
    { total := rules.length
      dead := namesOf isDead footed
      selfTriggering := namesOf isSelfTriggering footed
      conflicts := conflicts
      footprints := footprints
      warnings := footed.flatMap ruleWarnings ++ conflicts.map Conflict.warning }

end Analysis

end Rulebook
