import Mathlib.Data.Finset.Dedup
import Mathlib.Data.Finset.Lattice.Lemmas
import Mathlib.Logic.Function.Iterate
import Rulebook.Proofs.Expr.Walk
import Rulebook.Proofs.RuleBase.Entries

/-!
# Traversal with a stack

The walk through an expression as a traversal with a stack, turn by turn. A traversal ends after as
many turns as there are nodes. What it visits are the nodes in the order in which the recursion along
the expression lists them, which is the order of their places: every node before its parts, and the
nodes of a part before those of the parts to its right.
-/

namespace Rulebook.Expr

variable {e : Expr} {place : List Nat} {name : String}

/-! ## The recursion along an expression -/

/-- The nodes of an expression: the expression itself, then the nodes of its parts. -/
def nodes : Expr → List Expr
  | field base name => field base name :: base.nodes
  | element base index => element base index :: (base.nodes ++ index.nodes)
  | binary op left right => binary op left right :: (left.nodes ++ right.nodes)
  | unary op operand => unary op operand :: operand.nodes
  | assign target value => assign target value :: (target.nodes ++ value.nodes)
  | leaf => [leaf]

/-- The facts that an expression mentions: those of its parts, or the one that it names itself. -/
def mentioned : Expr → Finset String
  | number _ | string _ | bool _ | null => ∅
  | fact name => {name}
  | field base _ => base.mentioned
  | element base index => base.mentioned ∪ index.mentioned
  | binary _ left right => left.mentioned ∪ right.mentioned
  | unary _ operand => operand.mentioned
  | assign target value => target.mentioned ∪ value.mentioned

/-- The walk visits the nodes in their order. -/
theorem walk_eq_nodes (e : Expr) : e.walk = e.nodes := by
  induction e with
  | number x | string text | bool holds | null | fact name => rw [walk_eq]; rfl
  | field base name inductionHypothesis =>
      rw [walk_eq, nodes, ← inductionHypothesis]
      exact congrArg _ (List.append_nil _)
  | unary op operand inductionHypothesis =>
      rw [walk_eq, nodes, ← inductionHypothesis]
      exact congrArg _ (List.append_nil _)
  | element base index firstHypothesis secondHypothesis
  | binary op left right firstHypothesis secondHypothesis
  | assign target value firstHypothesis secondHypothesis =>
      rw [walk_eq, nodes, ← firstHypothesis, ← secondHypothesis]
      exact congrArg _ (congrArg _ (List.append_nil _))

private theorem length_nodes (e : Expr) : e.nodes.length = e.nodeCount := by
  induction e with
  | number x | string text | bool holds | null | fact name => rfl
  | field base name inductionHypothesis | unary op operand inductionHypothesis =>
      rw [nodes, nodeCount, List.length_cons, inductionHypothesis]
  | element base index firstHypothesis secondHypothesis
  | binary op left right firstHypothesis secondHypothesis
  | assign target value firstHypothesis secondHypothesis =>
      rw [nodes, nodeCount, List.length_cons, List.length_append, firstHypothesis,
        secondHypothesis]

theorem fact_mem_nodes_iff : fact name ∈ e.nodes ↔ name ∈ e.mentioned := by
  induction e with
  | number x | string text | bool holds | null | fact other => simp [nodes, mentioned]
  | field base other inductionHypothesis | unary op operand inductionHypothesis =>
      simp [nodes, mentioned, inductionHypothesis]
  | element base index firstHypothesis secondHypothesis
  | binary op left right firstHypothesis secondHypothesis
  | assign target value firstHypothesis secondHypothesis =>
      simp [nodes, mentioned, firstHypothesis, secondHypothesis]

private theorem toFinset_references (e : Expr) : e.references.toFinset = e.mentioned := by
  ext name
  rw [List.mem_toFinset, mem_references_iff, walk_eq_nodes, fact_mem_nodes_iff]

/-! ## Places of nodes -/

/-- The node at a place of an expression. A place is the way down from the whole expression: at each
node, 0 stands for its base, its left operand or its target, or its only part, and 1 for its index,
its right operand or its value. -/
def at? : Expr → List Nat → Option Expr
  | e, [] => some e
  | field base _, 0 :: place => base.at? place
  | element base _, 0 :: place => base.at? place
  | element _ index, 1 :: place => index.at? place
  | binary _ left _, 0 :: place => left.at? place
  | binary _ _ right, 1 :: place => right.at? place
  | unary _ operand, 0 :: place => operand.at? place
  | assign target _, 0 :: place => target.at? place
  | assign _ value, 1 :: place => value.at? place
  | _, _ :: _ => none

/-- The places of an expression, in the order of the recursion along it. -/
def places : Expr → List (List Nat)
  | field base _ => [] :: base.places.map (0 :: ·)
  | element base index => [] :: (base.places.map (0 :: ·) ++ index.places.map (1 :: ·))
  | binary _ left right => [] :: (left.places.map (0 :: ·) ++ right.places.map (1 :: ·))
  | unary _ operand => [] :: operand.places.map (0 :: ·)
  | assign target value => [] :: (target.places.map (0 :: ·) ++ value.places.map (1 :: ·))
  | _ => [[]]

private theorem at?_nil (e : Expr) : e.at? [] = some e := by
  cases e <;> rfl

/-- One step down leads to the part of that number: no part is left out of the parts of a node. -/
theorem at?_cons (e : Expr) (n : Nat) (place : List Nat) :
    e.at? (n :: place) = e.children[n]?.bind fun child => child.at? place := by
  -- No node has more than two parts.
  cases e <;> match n with
    | 0 | 1 | _ + 2 => rfl

private theorem nil_mem_places (e : Expr) : [] ∈ e.places := by
  cases e <;> exact List.mem_cons_self

theorem cons_mem_places_iff {n : Nat} :
    n :: place ∈ e.places ↔ ∃ child, e.children[n]? = some child ∧ place ∈ child.places := by
  cases e <;> match n with
    | 0 | 1 | _ + 2 => simp [places, children]

/-- The places of an expression are those at which there is a node. -/
theorem mem_places_iff : place ∈ e.places ↔ (e.at? place).isSome = true := by
  induction place generalizing e with
  | nil => simp [nil_mem_places, at?_nil]
  | cons n place inductionHypothesis =>
      rw [cons_mem_places_iff, at?_cons]
      cases e.children[n]? with
      | none => simp
      | some child => simp [inductionHypothesis]

/-- The nodes at the places, in the order of the places, are the nodes in their order. -/
theorem map_at?_places (e : Expr) : e.places.map e.at? = e.nodes.map some := by
  induction e with
  | number x | string text | bool holds | null | fact name => rfl
  | field base name inductionHypothesis | unary op operand inductionHypothesis =>
      simp [places, nodes, at?, Function.comp_def, inductionHypothesis]
  | element base index firstHypothesis secondHypothesis
  | binary op left right firstHypothesis secondHypothesis
  | assign target value firstHypothesis secondHypothesis =>
      simp [places, nodes, at?, Function.comp_def, firstHypothesis, secondHypothesis]

theorem pairwise_map_cons (n : Nat) {places : List (List Nat)}
    (increasing : places.Pairwise (· < ·)) : (places.map (n :: ·)).Pairwise (· < ·) :=
  List.pairwise_map.2 (increasing.imp fun less => List.cons_lt_cons_iff.2 (.inr ⟨rfl, less⟩))

/-- A place is less than those below it, and those below the first part than those below the
second. -/
theorem pairwise_below {first second : List (List Nat)} (firstIncreasing : first.Pairwise (· < ·))
    (secondIncreasing : second.Pairwise (· < ·)) :
    ([] :: (first.map (0 :: ·) ++ second.map (1 :: ·))).Pairwise (· < ·) := by
  rw [List.pairwise_cons, List.pairwise_append]
  simp only [List.forall_mem_append, List.forall_mem_map]
  refine ⟨⟨?_, ?_⟩, pairwise_map_cons 0 firstIncreasing, pairwise_map_cons 1 secondIncreasing, ?_⟩
  · exact fun place _ => List.nil_lt_cons 0 place
  · exact fun place _ => List.nil_lt_cons 1 place
  · exact fun _ _ _ _ => List.cons_lt_cons_iff.2 (.inl Nat.zero_lt_one)

private theorem pairwise_places (e : Expr) : e.places.Pairwise (· < ·) := by
  induction e with
  | number x | string text | bool holds | null | fact name => exact List.pairwise_singleton _ _
  | field base name inductionHypothesis | unary op operand inductionHypothesis =>
      simpa [places] using pairwise_below inductionHypothesis List.Pairwise.nil
  | element base index firstHypothesis secondHypothesis
  | binary op left right firstHypothesis secondHypothesis
  | assign target value firstHypothesis secondHypothesis =>
      exact pairwise_below firstHypothesis secondHypothesis

example :
    (binary .and (element (fact "seats") (fact "row")) (fact "open")).places =
      [[], [0], [0, 0], [0, 1], [1]] :=
  rfl

/-- The walk visits what stands at some place, and nothing else. -/
theorem mem_walk_iff {node : Expr} : node ∈ e.walk ↔ ∃ place, e.at? place = some node := by
  have listed : some node ∈ e.nodes.map some ↔ ∃ place ∈ e.places, e.at? place = some node := by
    rw [← map_at?_places, List.mem_map]
  rw [walk_eq_nodes, ← List.mem_map_of_injective (Option.some_injective Expr), listed]
  constructor
  · rintro ⟨place, -, found⟩
    exact ⟨place, found⟩
  · rintro ⟨place, found⟩
    exact ⟨place, mem_places_iff.2 (Option.isSome_of_eq_some found), found⟩

theorem hasAssignment_iff :
    e.hasAssignment = true ↔ ∃ place target value, e.at? place = some (assign target value) := by
  rw [hasAssignment, List.any_eq_true]
  constructor
  · rintro ⟨node, member, isAssign⟩
    obtain ⟨place, found⟩ := mem_walk_iff.1 member
    cases node with
    | assign target value => exact ⟨place, target, value, found⟩
    | _ => cases isAssign
  · rintro ⟨place, target, value, found⟩
    exact ⟨assign target value, mem_walk_iff.2 ⟨place, found⟩, rfl⟩

/-! ## The traversal with a stack -/

/-- A traversal under way: the expressions that are still to be visited, the next of them last, and
the nodes that were visited, in their order. -/
structure Traversal where
  stack : List Expr
  visited : List Expr

namespace Traversal

/-- The traversal of an expression, before its first turn. -/
def start (e : Expr) : Traversal :=
  ⟨[e], []⟩

/-- One turn of a traversal: the last expression of the stack is visited and gives way to its parts,
the leftmost of them last. A traversal whose stack is empty has ended. -/
def turn (t : Traversal) : Traversal :=
  match t.stack.getLast? with
  | some e => ⟨t.stack.dropLast ++ e.children.reverse, t.visited ++ [e]⟩
  | none => t

def remaining (t : Traversal) : List Expr :=
  walkAll t.stack.reverse

variable {t : Traversal}

private theorem remaining_start (e : Expr) : (start e).remaining = e.walk :=
  rfl

theorem stack_eq_nil_iff : t.stack = [] ↔ t.remaining = [] := by
  obtain ⟨stack, visited⟩ := t
  obtain rfl | ⟨stack, e, rfl⟩ := List.eq_nil_or_concat stack
  · simp [remaining, walkAll]
  · simp [remaining, walkAll]

/-- A turn moves the first of the nodes that remain to the end of those that were visited. -/
theorem turn_moves (t : Traversal) :
    t.turn.visited = t.visited ++ t.remaining.take 1 ∧ t.turn.remaining = t.remaining.drop 1 := by
  -- The stack is taken apart at its end: reversed, its last expression is the first to be walked, and
  -- the reversed parts stand in front of the others from left to right.
  obtain ⟨stack, visited⟩ := t
  obtain rfl | ⟨stack, e, rfl⟩ := List.eq_nil_or_concat stack
  · simp [turn, remaining, walkAll]
  · simp [turn, remaining, walkAll]

/-- So do several turns with as many nodes. -/
theorem turns_move (t : Traversal) (n : Nat) :
    (turn^[n] t).visited = t.visited ++ t.remaining.take n ∧
      (turn^[n] t).remaining = t.remaining.drop n := by
  induction n with
  | zero => simp
  | succ n inductionHypothesis =>
      obtain ⟨visited, remaining⟩ := inductionHypothesis
      obtain ⟨visitedNext, remainingNext⟩ := turn_moves (turn^[n] t)
      rw [Function.iterate_succ_apply', visitedNext, remainingNext, visited, remaining,
        List.append_assoc, ← List.take_add, List.drop_drop]
      exact ⟨rfl, rfl⟩

private theorem visited_turns_start (e : Expr) (n : Nat) :
    (turn^[n] (start e)).visited = e.walk.take n :=
  (turns_move (start e) n).1

theorem stack_turns_start_eq_nil_iff {n : Nat} :
    (turn^[n] (start e)).stack = [] ↔ e.nodeCount ≤ n := by
  rw [stack_eq_nil_iff, (turns_move (start e) n).2, remaining_start, List.drop_eq_nil_iff,
    walk_eq_nodes, length_nodes]

end Traversal

/-- The traversal of an expression with a stack ends after as many turns as there are nodes, and what
it has visited after any number of turns is the beginning of the walk. The walk is the recursive
listing of the nodes, which are those at all places of the expression, each place once and in
increasing order. So the facts that are found on it are those that the recursion finds, and an
assignment is found just if one stands at some place. -/
theorem walk_lists_places (e : Expr) :
    (∀ n, (Traversal.turn^[n] (.start e)).stack = [] ↔ e.nodeCount ≤ n) ∧
      (∀ n, (Traversal.turn^[n] (.start e)).visited = e.walk.take n) ∧
      e.walk = e.nodes ∧
      e.walk.map some = e.places.map e.at? ∧
      e.places.Pairwise (· < ·) ∧
      (∀ place, place ∈ e.places ↔ (e.at? place).isSome = true) ∧
      e.references.Nodup ∧
      e.references.toFinset = e.mentioned ∧
      (e.hasAssignment = true ↔
        ∃ place target value, e.at? place = some (assign target value)) :=
  ⟨fun _ => Traversal.stack_turns_start_eq_nil_iff, Traversal.visited_turns_start e,
    walk_eq_nodes e, by rw [walk_eq_nodes, map_at?_places], pairwise_places e,
    fun _ => mem_places_iff, nodup_eraseDups _, toFinset_references e, hasAssignment_iff⟩

end Rulebook.Expr
