import Rulebook.Analysis
import Rulebook.Engine.Run
import Rulebook.Grammar.Document
import Rulebook.Settings.Basic

/-!
# Engines

Engines: rules, settings, and for each fact store the attempts that were made on it. Rules can be
changed and runs begun only while no run is going on.
-/

namespace Rulebook

/-- What an engine is doing. -/
inductive Phase where
  | ready
  | evaluating
  | firing
  | done
deriving DecidableEq, Repr

namespace Phase

def name : Phase → String
  | ready => "ready"
  | evaluating => "evaluating"
  | firing => "firing"
  | done => "done"

def ofName? (name : String) : Option Phase :=
  [ready, evaluating, firing, done].find? fun phase => phase.name == name

def isRunning : Phase → Bool
  | evaluating | firing => true
  | ready | done => false

end Phase

/-- What cannot be done during a run. -/
inductive Activity where
  | addRules
  | removeRules
  | reset
  | execute
deriving DecidableEq, Repr

def Activity.text : Activity → String
  | addRules => "add rules"
  | removeRules => "remove rules"
  | reset => "reset"
  | execute => "execute"

/-- An engine. The attempts on a fact store are kept under the store's identity. -/
structure Engine where
  settings : Settings
  base : RuleBase
  phase : Phase
  histories : Table History

namespace Engine

/-- Why an engine refuses something. -/
inductive Fault where
  | busy (activity : Activity)
  | duplicateName (rule : String)
  | emptyName
  | assignmentInCondition (rule : String)
deriving DecidableEq, Repr

namespace Fault

def code : Fault → String
  | busy _ => "engine_error"
  | duplicateName _ => "duplicate_rule_name"
  | emptyName | assignmentInCondition _ => "invalid_rule"

def message : Fault → String
  | busy activity => "Cannot " ++ activity.text ++ " while rules are executing"
  | duplicateName rule => "Rule '" ++ rule ++ "' already exists"
  | emptyName => "Rule name must not be empty"
  | assignmentInCondition rule => "Rule '" ++ rule ++ "' has an assignment in its condition"

end Fault

def new (settings : Settings) : Engine :=
  ⟨settings, .empty settings.duplicates, .ready, ∅⟩

/-- Goes on only while no run is going on. -/
def whenIdle {α : Type} (engine : Engine) (activity : Activity) (result : Except Fault α) :
    Except Fault α :=
  if engine.phase.isRunning then .error (.busy activity) else result

def forgetRule (engine : Engine) (name : String) : Engine :=
  { engine with histories := engine.histories.map fun history => history.erase name }

def forgetStore (engine : Engine) (store : String) : Engine :=
  { engine with histories := engine.histories.erase store }

def addIdle (engine : Engine) (rule : Rule) : Except Fault Engine :=
  if rule.name.isEmpty then .error .emptyName
  else if rule.condition.hasAssignment then .error (.assignmentInCondition rule.name)
  else
    match engine.base.add? rule with
    | none => .error (.duplicateName rule.name)
    | some base => .ok ({ engine with base := base }.forgetRule rule.name)

/-- Adds a rule. A rule that takes the place of another may fire at once. -/
def addRule (engine : Engine) (rule : Rule) : Except Fault Engine :=
  engine.whenIdle .addRules (engine.addIdle rule)

/-- Adds rules one after another up to the first that is refused. -/
def addRules (engine : Engine) : List Rule → Engine × Except Fault Unit
  | [] => (engine, .ok ())
  | rule :: rules =>
    match engine.addRule rule with
    | .error fault => (engine, .error fault)
    | .ok after => after.addRules rules

/-- Why the rules of a document are not all added. -/
inductive DocumentFault where
  | grammar (fault : Grammar.Fault)
  | engine (fault : Fault)

/-- Adds the rules of a document without faults; the result is the rules that were read. -/
def addDocument (engine : Engine) (text : String) : Engine × Except DocumentFault (List Rule) :=
  match Rule.parseAll text with
  | .error fault => (engine, .error (.grammar fault))
  | .ok rules =>
    match engine.addRules rules with
    | (after, .ok ()) => (after, .ok rules)
    | (after, .error fault) => (after, .error (.engine fault))

/-- Takes the rule of a given name away; the result is that rule. -/
def removeRule (engine : Engine) (name : String) : Except Fault (Engine × Option Rule) :=
  engine.whenIdle .removeRules <|
    .ok ({ engine with base := engine.base.erase name }.forgetRule name, engine.base.get? name)

/-- Forgets all attempts, so that every rule may fire again. -/
def reset (engine : Engine) : Except Fault Engine :=
  engine.whenIdle .reset (.ok { engine with histories := ∅, phase := .ready })

/-- Analyses the rules in the order in which they take their turns. -/
def analyze? (engine : Engine) : Option Analysis :=
  Analysis.ofRules? engine.base.bySalience

def historyOf (engine : Engine) (store : String) : History :=
  (engine.histories.get? store).getD ∅

/-- Runs the rules on a store of a given identity: the engine and the store afterwards, and the
report. -/
def execute (engine : Engine) (identity : String) (store : Store) :
    Except Fault (Engine × Store × Report) :=
  engine.whenIdle .execute <|
    let finished :=
      Run.takePasses engine.settings.refraction engine.base.bySalience engine.settings.maxPasses 0
        (Run.start store (engine.historyOf identity))
    .ok
      ({ engine with
          phase := .done
          histories := engine.histories.set identity finished.run.history },
        finished.run.store, .ofFinished finished)

/-- The text under which it is reported that a run was asked for on something that is no store. -/
def notAStore (datum : Plain) : String :=
  "execute expects a FactStore, got " ++ datum.typeName

end Engine

end Rulebook
