import Rulebook.Expr.Logic
import Rulebook.Plain.Conversion
import Rulebook.Rule.Basic

/-!
# Rules as plain data

Rules as plain data: a mapping with the name, the description, the salience, the condition and the
actions. When a rule is read, salience and actions may be absent, and other keys have no meaning.
-/

namespace Rulebook.Rule

open Text (Quotable)

def toPlain (rule : Rule) : Plain :=
  .mapping
    [(.text "name", .text rule.name),
      (.text "description",
        match rule.description with
        | some quotable => .text quotable.text
        | none => .none),
      (.text "salience", .integer rule.salience),
      (.text "when", rule.condition.toLogic),
      (.text "then", .list (rule.actions.map Expr.toLogic))]

/-- Why a datum is no rule. -/
inductive PlainFault where
  | notAMapping
  | keyMissing (key : String)
  | datum (fault : Plain.Fault)
  | logic (fault : Expr.LogicFault)
  | descriptionNotText

def PlainFault.message? : PlainFault → Option String
  | datum fault => fault.message?
  | logic fault => fault.message?
  | notAMapping | keyMissing _ | descriptionNotText => none

def readDescription : Option Plain → Except PlainFault (Option Quotable)
  | none | some .none => .ok none
  | some (.text text) => ((Expr.quotable text).mapError .logic).map some
  | some _ => .error .descriptionNotText

def required (key : String) (entries : List (Plain × Plain)) : Except PlainFault Plain :=
  match Plain.lookup? key entries with
  | some datum => .ok datum
  | none => .error (.keyMissing key)

/-- Reads a rule from plain data: name, salience, condition, actions and description in turn. -/
def ofPlain : Plain → Except PlainFault Rule
  | .mapping entries => do
    let name ← required "name" entries
    let salience ←
      (((Plain.lookup? "salience" entries).getD (.integer 0)).toInteger).mapError .datum
    let condition ← (Expr.ofLogic (← required "when" entries)).mapError .logic
    let written ←
      (((Plain.lookup? "then" entries).getD (.list [])).members).mapError .datum
    let actions ← (written.mapM Expr.ofLogic).mapError .logic
    let description ← readDescription (Plain.lookup? "description" entries)
    match name with
    | .text text => .ok ⟨text, salience, condition, actions, description⟩
    | _ => .error (.datum .wrongType)
  | _ => .error .notAMapping

/-- A rule with another description, or with none. -/
def withDescription (rule : Rule) (datum : Plain) : Except PlainFault Rule :=
  (readDescription (some datum)).map fun description => { rule with description }

end Rulebook.Rule
