import Rulebook.Expr.Action
import Rulebook.Expr.Walk
import Rulebook.RuleBase

/-!
# Runs

Runs: forward chaining over a fact store. In each pass every rule takes a turn, in which its
condition is evaluated and, if it holds, its actions are performed. Passes follow one another until
one of them changes nothing, or as many as are allowed were made.

With refraction, a rule whose condition holds is passed over while the facts that the condition
mentions are as they were at its last attempt.
-/

namespace Rulebook

/-- The facts that a condition mentions, as they were at one moment; `none` for absent ones. -/
abbrev Signature := List (String × Option Value)

namespace Signature

def ofRule (rule : Rule) (store : Store) : Signature :=
  rule.condition.references.map fun name => (name, store.get? name)

/-- Whether a fact is the same at two moments: absent at both, or present with equal values. -/
def sameFact : Option Value → Option Value → Bool
  | none, none => true
  | some value, some other => value.same other
  | _, _ => false

def same : Signature → Signature → Bool
  | [], [] => true
  | (name, value?) :: facts, (other, otherValue?) :: others =>
    name == other && sameFact value? otherValue? && same facts others
  | _, _ => false

end Signature

/-- The signature at the last attempt of each rule. -/
abbrev History := Table Signature

/-- The part of a turn in which a rule failed. -/
inductive TurnPart where
  | condition
  | action
deriving DecidableEq, Repr

def TurnPart.name : TurnPart → String
  | condition => "condition"
  | action => "action"

/-- A fault that ended the turn of a rule. -/
structure Failure where
  rule : String
  part : TurnPart
  pass : Nat
  fault : Expr.Fault

/-- How far a run has come: the facts, the attempts, and what there is to report. -/
structure Run where
  store : Store
  history : History
  fired : List String
  failures : List Failure
  modified : List String

namespace Run

/-- A run before its first pass. -/
def start (store : Store) (history : History) : Run :=
  ⟨store, history, [], [], []⟩

/-- Notes that a fact was written, each fact once. -/
def noteWrite (modified : List String) (name : String) : List String :=
  if modified.contains name then modified else modified ++ [name]

/-- What performing several actions led to: the facts, the facts that were written, in order, and
the fault that ended it. -/
structure Performed where
  store : Store
  written : List String
  fault? : Option Expr.Fault

/-- Performs actions one after another up to the first fault. What was written before stays. -/
def performAll (store : Store) : List Expr → Performed
  | [] => ⟨store, [], none⟩
  | action :: actions =>
    match action.perform store with
    | .error fault => ⟨store, [], some fault⟩
    | .ok (after, written?) =>
      let others := performAll after actions
      { others with written := written?.toList ++ others.written }

def recordAttempt (refraction : Bool) (rule : Rule) (signature : Signature) (history : History) :
    History :=
  if refraction then history.set rule.name signature else history

/-- Whether a rule is passed over, given the facts that its condition mentions. -/
def isSuppressed (refraction : Bool) (rule : Rule) (signature : Signature) (history : History) :
    Bool :=
  refraction &&
    match history.get? rule.name with
    | some previous => previous.same signature
    | none => false

/-- Performs the actions of a rule whose condition holds. The attempt is recorded with the facts as
they were before. The rule has fired when no action failed; when one did, the facts may still have
changed. -/
def attempt (refraction : Bool) (pass : Nat) (rule : Rule) (signature : Signature) (run : Run) :
    Run × Bool :=
  let performed := performAll run.store rule.actions
  let after : Run :=
    { run with
      store := performed.store
      history := recordAttempt refraction rule signature run.history
      modified := performed.written.foldl noteWrite run.modified }
  match performed.fault? with
  | none => ({ after with fired := after.fired ++ [rule.name] }, true)
  | some fault =>
    ({ after with failures := after.failures ++ [⟨rule.name, .action, pass, fault⟩] },
      !performed.written.isEmpty)

/-- The turn of a rule in a pass; with it, whether the facts may have changed. -/
def takeTurn (refraction : Bool) (pass : Nat) (rule : Rule) (run : Run) : Run × Bool :=
  match rule.condition.evalCondition run.store with
  | .error fault =>
    ({ run with failures := run.failures ++ [⟨rule.name, .condition, pass, fault⟩] }, false)
  | .ok (some true) =>
    let signature := Signature.ofRule rule run.store
    if isSuppressed refraction rule signature run.history then (run, false)
    else attempt refraction pass rule signature run
  | .ok _ => (run, false)

/-- The turns of several rules in a pass; with them, whether the facts may have changed. -/
def takePass (refraction : Bool) (pass : Nat) : List Rule → Run → Run × Bool
  | [], run => (run, false)
  | rule :: rules, run =>
    let (after, changed) := takeTurn refraction pass rule run
    let (last, changedLater) := takePass refraction pass rules after
    (last, changed || changedLater)

/-- The end of a run: the number of passes, and whether the last one that was allowed changed
something. -/
structure Finished where
  run : Run
  passes : Nat
  boundReached : Bool

/-- Makes passes until one changes nothing, at most as many as are allowed, with the number of those
already made. -/
def takePasses (refraction : Bool) (rules : List Rule) : (allowed made : Nat) → Run → Finished
  | 0, made, run => ⟨run, made, true⟩
  | allowed + 1, made, run =>
    match takePass refraction (made + 1) rules run with
    | (after, true) => takePasses refraction rules allowed (made + 1) after
    | (after, false) => ⟨after, made + 1, false⟩

end Run

/-- What a run reports. -/
structure Report where
  fired : List String
  failures : List Failure
  modified : List String
  passes : Nat
  boundReached : Bool

namespace Report

def ofFinished (finished : Run.Finished) : Report :=
  ⟨finished.run.fired, finished.run.failures, finished.run.modified, finished.passes,
    finished.boundReached⟩

/-- Whether no rule failed and the facts came to rest. -/
def isSuccess (report : Report) : Bool :=
  report.failures.isEmpty && !report.boundReached

/-- How a run ended, in words. -/
def status (report : Report) : String :=
  if report.boundReached then "STOPPED at iteration limit"
  else if report.failures.isEmpty then "COMPLETED"
  else "COMPLETED with errors"

def failureLine (failure : Failure) : String :=
  "    - " ++ failure.rule ++ " (" ++ failure.part.name ++ "): " ++ failure.fault.message

/-- A report in words, line by line. The facts that were written are left out if there are none. -/
def summaryLines (report : Report) : List String :=
  ["Execution " ++ report.status, "  Passes: " ++ toString report.passes,
    "  Rules Fired: " ++ toString report.fired.length] ++
    (if report.modified.isEmpty then []
      else ["  Facts Modified: " ++ ", ".intercalate report.modified]) ++
    ["  Errors: " ++ toString report.failures.length] ++ report.failures.map failureLine

def summary (report : Report) : String :=
  "\n".intercalate report.summaryLines

end Report

end Rulebook
