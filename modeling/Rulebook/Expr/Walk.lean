import Rulebook.Expr.Basic

/-!
# Nodes of an expression

The nodes of an expression in the order in which they stand in its text, and what is found on the
way: the facts that it mentions and the assignments inside it.
-/

namespace Rulebook.Expr

def children : Expr → List Expr
  | field base _ => [base]
  | element base index => [base, index]
  | binary _ left right => [left, right]
  | unary _ operand => [operand]
  | assign target value => [target, value]
  | _ => []

def nodeCount : Expr → Nat
  | field base _ => base.nodeCount + 1
  | element base index => base.nodeCount + index.nodeCount + 1
  | binary _ left right => left.nodeCount + right.nodeCount + 1
  | unary _ operand => operand.nodeCount + 1
  | assign target value => target.nodeCount + value.nodeCount + 1
  | _ => 1

def totalCount : List Expr → Nat
  | [] => 0
  | e :: pending => e.nodeCount + totalCount pending

theorem totalCount_children (e : Expr) (pending : List Expr) :
    totalCount (e.children ++ pending) + 1 = totalCount (e :: pending) := by
  cases e <;>
    simp only [children, nodeCount, totalCount, List.cons_append, List.nil_append] <;> omega

/-- The nodes of the expressions that are still to be visited: the first of them, then its parts,
then the others. -/
def walkAll : List Expr → List Expr
  | [] => []
  | e :: pending => e :: walkAll (e.children ++ pending)
termination_by pending => totalCount pending
decreasing_by
  have := totalCount_children e pending
  omega

/-- The nodes of an expression, each before its parts and the parts from left to right. -/
def walk (e : Expr) : List Expr :=
  walkAll [e]

def factName? : Expr → Option String
  | fact name => some name
  | _ => none

def isAssignment : Expr → Bool
  | assign _ _ => true
  | _ => false

/-- The facts that an expression mentions, each once. -/
def references (e : Expr) : List String :=
  (e.walk.filterMap factName?).eraseDups

def hasAssignment (e : Expr) : Bool :=
  e.walk.any isAssignment

/-- The facts that the assignments among several actions write, each once. `none` when the target
of one of them is no path. -/
def assignedFacts? (actions : List Expr) : Option (List String) := do
  let roots ← actions.filterMapM fun action =>
    match action with
    | assign target _ => target.root?.map some
    | _ => some none
  some roots.eraseDups

/-- A check for conditions that cannot hold: a false literal, alone or in the way of a
conjunction, and the negation of a true one. -/
def isAlwaysFalse : Expr → Bool
  | bool holds => !holds
  | unary .not (bool holds) => holds
  | binary .and left right => left.isAlwaysFalse || right.isAlwaysFalse
  | binary .or left right => left.isAlwaysFalse && right.isAlwaysFalse
  | _ => false

end Rulebook.Expr
