import Rulebook.Engine.Basic

/-!
# Sessions

Sessions: an engine together with the fact stores on which it runs. A store that takes the place of
another begins without attempts.
-/

namespace Rulebook

/-- An engine and fact stores by their identities. -/
structure Session where
  engine : Engine
  stores : Table Store

namespace Session

/-- The store of an identity; one that was never used is empty. -/
def store (session : Session) (identity : String) : Store :=
  (session.stores.get? identity).getD ∅

/-- Changes a store in place. -/
def setStore (session : Session) (identity : String) (store : Store) : Session :=
  { session with stores := session.stores.set identity store }

/-- Puts a new store in the place of another. -/
def renewStore (session : Session) (identity : String) (store : Store) : Session :=
  { session.setStore identity store with engine := session.engine.forgetStore identity }

/-- Runs the rules on the store of an identity. -/
def execute (session : Session) (identity : String) : Except Engine.Fault (Session × Report) :=
  (session.engine.execute identity (session.store identity)).map fun (engine, store, report) =>
    ({ session with engine := engine }.setStore identity store, report)

end Session

end Rulebook
