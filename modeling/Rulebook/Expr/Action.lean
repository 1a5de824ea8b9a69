import Rulebook.Expr.Evaluation
import Rulebook.Value.Path

/-!
# Actions

Performing actions. An assignment writes a value at a path; any other expression is evaluated for
its faults alone. An action with a fault changes nothing.
-/

namespace Rulebook.Expr

/-- The steps from the root of a path to its end, in front of steps that follow; the whole target
is what a fault names. Indices are evaluated from the end of the path to its root. -/
def locateBefore (store : Store) (target : Expr) :
    Expr → List Step → Except Fault (String × List Step)
  | fact name, steps => .ok (name, steps)
  | field base name, steps => locateBefore store target base (.field name :: steps)
  | element base index, steps => do
    let place ← indexOf (← index.eval store)
    locateBefore store target base (.element place :: steps)
  | _, _ => .error (.notATarget target)

/-- The root fact of a target and the steps from it to the place that the target names. -/
def locate (store : Store) (target : Expr) : Except Fault (String × List Step) :=
  locateBefore store target target []

/-- Writes a value at the end of a path from a fact. A fact itself may be new; one that is written
into has to be there. -/
def writeAt (store : Store) (root : String) (steps : List Step) (value : Value) :
    Except Fault Store :=
  match steps with
  | [] => .ok (store.set root value)
  | _ =>
    match store.get? root with
    | none => .error (.unknownFact root)
    | some old => do
      let new ← (old.write steps value).mapError .part
      .ok (store.set root new)

/-- Performs an action: the store afterwards, and the fact that was written, if any. The value is
evaluated before the indices of the target. -/
def perform (store : Store) : Expr → Except Fault (Store × Option String)
  | assign target value => do
    let written ← value.eval store
    let (root, steps) ← target.locate store
    let updated ← writeAt store root steps written
    .ok (updated, some root)
  | action => do
    let _ ← action.eval store
    .ok (store, none)

end Rulebook.Expr
