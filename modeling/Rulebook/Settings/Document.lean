import Rulebook.Settings.Basic
import Rulebook.Yaml.Document

/-!
# Settings from a document

Settings from a YAML document. They may stand at the top or under the key for the engine, in which
case all else in the document is left aside.
-/

namespace Rulebook.Settings

/-- Why there are no settings to be had from a document. -/
inductive LoadFault where
  | notFound
  | document (fault : Yaml.Fault)
  | empty
  | notAMapping
  | settings (faults : List Fault)

namespace LoadFault

def code : String := "config_error"

/-- The text under which a fault of the document at a path is reported; those of the settings in it
are reported one by one, and those of single scalars by their kind. -/
def message? (path : String) : LoadFault → Option String
  | notFound => some ("Config file not found: " ++ path)
  | document .unreadable => some "YAML parse error"
  | document _ => none
  | empty => some ("Config file is empty: " ++ path)
  | notAMapping => some ("Config file must contain a mapping: " ++ path)
  | settings _ => none

end LoadFault

def engineSection (entries : List (Plain × Plain)) : Plain :=
  match Plain.lookup? "engine" entries with
  | none => .mapping entries
  | some datum => if datum.isTruthy then datum else .mapping []

/-- Settings from the text of a document; `none` where there is no document. -/
def load : Option String → Except LoadFault Settings
  | none => .error .notFound
  | some text =>
    match Yaml.read text with
    | .error fault => .error (.document fault)
    | .ok .none => .error .empty
    | .ok (.mapping entries) => (ofPlain (engineSection entries)).mapError .settings
    | .ok _ => .error .notAMapping

end Rulebook.Settings
