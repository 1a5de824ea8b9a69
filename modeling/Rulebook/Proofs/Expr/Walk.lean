import Rulebook.Expr.Walk

/-!
# The walk through an expression

The walk through an expression along its structure: the expression itself, then the walks through
its parts. What is found on a walk is found in the parts.
-/

namespace Rulebook.Expr

private theorem walkAll_append (es others : List Expr) :
    walkAll (es ++ others) = walkAll es ++ walkAll others := by
  induction es using walkAll.induct with
  | case1 =>
      rw [walkAll, List.nil_append, List.nil_append]
  | case2 e pending inductionHypothesis =>
      rw [List.cons_append, walkAll, walkAll, List.cons_append, ← inductionHypothesis,
        List.append_assoc]

private theorem walkAll_eq_flatMap (es : List Expr) : walkAll es = es.flatMap walk := by
  induction es with
  | nil => rw [walkAll, List.flatMap_nil]
  | cons e es inductionHypothesis =>
      rw [← List.singleton_append, walkAll_append, inductionHypothesis, List.singleton_append,
        List.flatMap_cons, walk]

/-- The walk visits an expression, and then its children from the left to the right. -/
theorem walk_eq (e : Expr) : e.walk = e :: e.children.flatMap walk := by
  rw [walk, walkAll, List.append_nil, walkAll_eq_flatMap]

theorem mem_walk_self (e : Expr) : e ∈ e.walk := by
  rw [walk_eq]
  exact List.mem_cons_self

theorem mem_walk_of_child {e child node : Expr} (part : child ∈ e.children)
    (member : node ∈ child.walk) : node ∈ e.walk := by
  rw [walk_eq]
  exact List.mem_cons_of_mem e (List.mem_flatMap.2 ⟨child, part, member⟩)

/-! ## Facts that are mentioned -/

/-- An expression refers to the facts that its walk meets. -/
theorem mem_references_iff {e : Expr} {name : String} :
    name ∈ e.references ↔ fact name ∈ e.walk := by
  simp only [references, List.mem_eraseDups, List.mem_filterMap]
  constructor
  · rintro ⟨node, member, named⟩
    cases node <;> simp [factName?] at named
    exact named ▸ member
  · intro member
    exact ⟨fact name, member, rfl⟩

theorem mem_references_of_child {e child : Expr} {name : String} (part : child ∈ e.children)
    (member : name ∈ child.references) : name ∈ e.references :=
  mem_references_iff.2 (mem_walk_of_child part (mem_references_iff.1 member))

/-! ## Assignments -/

theorem hasAssignment_eq (e : Expr) :
    e.hasAssignment = (e.isAssignment || e.children.any hasAssignment) := by
  rw [hasAssignment, walk_eq, List.any_cons, List.any_flatMap]
  rfl

theorem hasAssignment_assign (target value : Expr) : (assign target value).hasAssignment = true := by
  rw [hasAssignment_eq]
  rfl

theorem hasAssignment_eq_false_iff {e : Expr} :
    e.hasAssignment = false ↔
      e.isAssignment = false ∧ ∀ child ∈ e.children, child.hasAssignment = false := by
  rw [hasAssignment_eq, Bool.or_eq_false_iff, List.any_eq_false]
  simp only [Bool.not_eq_true]

theorem hasAssignment_of_child {e child : Expr} (free : e.hasAssignment = false)
    (part : child ∈ e.children) : child.hasAssignment = false :=
  (hasAssignment_eq_false_iff.1 free).2 child part

end Rulebook.Expr
