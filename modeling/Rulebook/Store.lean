import Rulebook.Value.Basic

/-!
# Fact stores

Fact stores: named values. An absent fact is told from one whose value is null.
-/

namespace Rulebook

/-- Facts by name, in the order in which they were first set. -/
abbrev Store := Table Value

namespace Store

def toObject (store : Store) : Value :=
  .object store.entries

/-- The names of the facts in order of their code points. -/
def sortedNames (store : Store) : List String :=
  store.names.mergeSort

end Store

end Rulebook
