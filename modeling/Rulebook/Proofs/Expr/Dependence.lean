import Rulebook.Expr.Action
import Rulebook.Proofs.Computation
import Rulebook.Proofs.Expr.Walk

/-!
# Facts that expressions depend on

What expressions depend on and what actions write. The value of an expression depends on no facts
but those that it mentions, and performing actions changes no facts but those that they assign.
-/

namespace Rulebook

/-- Whether two stores have the same facts among those of some names. -/
def Store.AgreeOn (names : List String) (store other : Store) : Prop :=
  ∀ name ∈ names, store.get? name = other.get? name

theorem Store.AgreeOn.mono {names fewer : List String} {store other : Store}
    (agree : AgreeOn names store other) (included : ∀ name ∈ fewer, name ∈ names) :
    AgreeOn fewer store other :=
  fun name member => agree name (included name member)

namespace Expr

variable {store other : Store}

theorem AgreeOn.child {e child : Expr} (agree : Store.AgreeOn e.references store other)
    (part : child ∈ e.children) : Store.AgreeOn child.references store other :=
  agree.mono fun _ => mem_references_of_child part

/-- The value of an expression depends only on the facts that it mentions. -/
theorem eval_congr {e : Expr} (agree : Store.AgreeOn e.references store other) :
    e.eval store = e.eval other := by
  induction e with
  | number x | string text | bool holds | null => rfl
  | fact name =>
      have same : store.get? name = other.get? name :=
        agree name (mem_references_iff.2 (mem_walk_self _))
      rw [eval, eval, same]
  | field base name inductionHypothesis =>
      rw [eval, eval, inductionHypothesis (AgreeOn.child agree (by simp [children]))]
  | element base index baseHypothesis indexHypothesis =>
      rw [eval, eval, baseHypothesis (AgreeOn.child agree (by simp [children])),
        indexHypothesis (AgreeOn.child agree (by simp [children]))]
  | binary op left right leftHypothesis rightHypothesis =>
      have sameLeft := leftHypothesis (AgreeOn.child agree (by simp [children]))
      have sameRight := rightHypothesis (AgreeOn.child agree (by simp [children]))
      cases op <;> simp only [eval, sameLeft, sameRight]
  | unary op operand inductionHypothesis =>
      rw [eval, eval, inductionHypothesis (AgreeOn.child agree (by simp [children]))]
  | assign target value => rw [eval, eval]

/-- A condition depends only on the facts that it refers to. -/
theorem evalCondition_congr {e : Expr} (agree : Store.AgreeOn e.references store other) :
    e.evalCondition store = e.evalCondition other := by
  rw [evalCondition, evalCondition, eval_congr agree]

/-! ## Actions -/

private theorem locateBefore_congr {target e : Expr} {steps : List Step}
    (agree : Store.AgreeOn e.references store other) :
    locateBefore store target e steps = locateBefore other target e steps := by
  induction e generalizing steps with
  | fact name => rw [locateBefore, locateBefore]
  | field base name inductionHypothesis =>
      rw [locateBefore, locateBefore]
      exact inductionHypothesis (AgreeOn.child agree (by simp [children]))
  | element base index baseHypothesis _ =>
      have sameIndex : index.eval store = index.eval other :=
        eval_congr (AgreeOn.child agree (by simp [children]))
      have sameBase (steps : List Step) :
          locateBefore store target base steps = locateBefore other target base steps :=
        baseHypothesis (AgreeOn.child agree (by simp [children]))
      simp only [locateBefore, sameIndex, sameBase]
  | _ => rfl

private theorem writeAt_congr {names : List String} {root : String} {steps : List Step} {value : Value}
    (agree : Store.AgreeOn names store other) (isNamed : root ∈ names) :
    Alike (Store.AgreeOn names) (writeAt store root steps value)
      (writeAt other root steps value) := by
  have agreeAfter (new : Value) : Store.AgreeOn names (store.set root new) (other.set root new) := by
    intro name member
    by_cases same : name = root
    · subst same
      rw [Table.get?_set_self, Table.get?_set_self]
    · rw [Table.get?_set_of_ne _ _ same, Table.get?_set_of_ne _ _ same]
      exact agree name member
  rw [writeAt.eq_def, writeAt.eq_def, agree root isNamed]
  cases steps with
  | nil => exact .ok (agreeAfter value)
  | cons step steps =>
      cases other.get? root with
      | none => exact .error _
      | some old => exact Alike.bind_self _ fun new => .ok (agreeAfter new)

theorem mem_references_of_root? {e : Expr} {root : String} (isRoot : e.root? = some root) :
    root ∈ e.references := by
  induction e with
  | fact name =>
      injection isRoot with same
      exact same ▸ mem_references_iff.2 (mem_walk_self _)
  | field base name inductionHypothesis =>
      exact mem_references_of_child (by simp [children]) (inductionHypothesis isRoot)
  | element base index inductionHypothesis _ =>
      exact mem_references_of_child (by simp [children]) (inductionHypothesis isRoot)
  | _ => cases isRoot

/-! ## Facts that are written -/

/-- What a target is located in is its root, whatever its indexes come to. -/
theorem root?_of_locateBefore {target e : Expr} {steps found : List Step} {root : String}
    (located : locateBefore store target e steps = .ok (root, found)) : e.root? = some root := by
  induction e generalizing steps with
  | fact name =>
      rw [locateBefore] at located
      injection located with same
      injection same with sameName
      exact congrArg some sameName
  | field base name inductionHypothesis =>
      rw [locateBefore] at located
      exact inductionHypothesis located
  | element base index inductionHypothesis _ =>
      obtain ⟨value, _, located⟩ := bind_eq_ok_iff.1 located
      obtain ⟨place, _, located⟩ := bind_eq_ok_iff.1 located
      exact inductionHypothesis located
  | _ => cases located

private theorem writeAt_eq_ok {root : String} {steps : List Step} {value : Value} {after : Store}
    (written : writeAt store root steps value = .ok after) :
    ∃ new, after = store.set root new := by
  rw [writeAt.eq_def] at written
  split at written
  · injection written with same
    exact ⟨value, same.symm⟩
  · split at written
    · cases written
    · obtain ⟨new, _, written⟩ := bind_eq_ok_iff.1 written
      injection written with same
      exact ⟨new, same.symm⟩

/-- Stores that agree on all that an action mentions lead to the same fault, or to the same write and
to stores that agree again. -/
theorem perform_congr {action : Expr} {names : List String}
    (agree : Store.AgreeOn names store other)
    (mentioned : ∀ name ∈ action.references, name ∈ names) :
    Alike (fun result otherResult =>
        Store.AgreeOn names result.1 otherResult.1 ∧ result.2 = otherResult.2)
      (action.perform store) (action.perform other) := by
  have agreeHere : Store.AgreeOn action.references store other := agree.mono mentioned
  cases action with
  | assign target value =>
      have agreeTarget : Store.AgreeOn target.references store other :=
        AgreeOn.child agreeHere (by simp [children])
      have sameValue : value.eval store = value.eval other :=
        eval_congr (AgreeOn.child agreeHere (by simp [children]))
      have sameTarget : target.locate store = target.locate other :=
        locateBefore_congr agreeTarget
      simp only [perform, sameValue]
      refine Alike.bind_self _ fun written => ?_
      cases located : target.locate other with
      | error fault =>
          rw [sameTarget, located]
          exact .error fault
      | ok place =>
          obtain ⟨root, steps⟩ := place
          have isRoot : target.root? = some root := root?_of_locateBefore located
          have isNamed : root ∈ names :=
            mentioned root (mem_references_of_child (by simp [children])
              (mem_references_of_root? isRoot))
          rw [sameTarget, located]
          refine (writeAt_congr agree isNamed).bind ?_
          exact fun after otherAfter agreeAfter => .ok ⟨agreeAfter, rfl⟩
  | _ =>
      simp only [perform, eval_congr agreeHere]
      exact Alike.bind_self _ fun _ => .ok ⟨agree, rfl⟩

/-- What a performed action wrote: an assignment gave the root of its target a value, and no other
action wrote a fact. -/
theorem perform_eq_ok {action : Expr} {after : Store} {written? : Option String}
    (performed : action.perform store = .ok (after, written?)) :
    (written? = none ∧ after = store) ∨
      ∃ target value root new, action = assign target value ∧ target.root? = some root ∧
        written? = some root ∧ after = store.set root new := by
  cases action with
  | assign target value =>
      obtain ⟨written, _, performed⟩ := bind_eq_ok_iff.1 performed
      obtain ⟨⟨root, steps⟩, located, performed⟩ := bind_eq_ok_iff.1 performed
      obtain ⟨updated, isUpdated, performed⟩ := bind_eq_ok_iff.1 performed
      cases performed
      obtain ⟨new, isSet⟩ := writeAt_eq_ok isUpdated
      exact .inr ⟨target, value, root, new, rfl, root?_of_locateBefore located, rfl, isSet⟩
  | _ =>
      obtain ⟨_, _, performed⟩ := bind_eq_ok_iff.1 performed
      cases performed
      exact .inl ⟨rfl, rfl⟩

/-- The fact that an action assigns, if it is an assignment; its target has to be a path. -/
def assignedRoot? : Expr → Option (Option String)
  | assign target _ => target.root?.map some
  | _ => some none

theorem assignedFacts?_eq_some_iff {actions : List Expr} {roots : List String} :
    assignedFacts? actions = some roots ↔
      ∃ found, actions.filterMapM assignedRoot? = some found ∧ found.eraseDups = roots := by
  show (actions.filterMapM assignedRoot?).bind (fun found => some found.eraseDups) = some roots ↔ _
  rw [Option.bind_eq_some_iff]
  simp only [Option.some.injEq]

/-- The fact that an action assigns, if it is an assignment to a path. -/
def assigned? : Expr → Option String
  | assign target _ => target.root?
  | _ => none

theorem filterMapM_assignedRoot? {actions : List Expr}
    (paths : ∀ target value, assign target value ∈ actions → target.isPath = true) :
    actions.filterMapM assignedRoot? = some (actions.filterMap assigned?) := by
  induction actions with
  | nil => rfl
  | cons action actions inductionHypothesis =>
      have collectedLater := inductionHypothesis fun target value member =>
        paths target value (List.mem_cons_of_mem action member)
      rw [List.filterMapM_cons, collectedLater]
      cases action with
      | assign target value =>
          obtain ⟨root, isRoot⟩ :=
            Option.isSome_iff_exists.1 (paths target value List.mem_cons_self)
          simp [assignedRoot?, assigned?, isRoot]
      | _ => rfl

/-- Where all targets are paths, it is known which facts actions assign. -/
theorem exists_assignedFacts? {actions : List Expr}
    (paths : ∀ target value, assign target value ∈ actions → target.isPath = true) :
    ∃ roots, assignedFacts? actions = some roots :=
  ⟨_, assignedFacts?_eq_some_iff.2 ⟨_, filterMapM_assignedRoot? paths, rfl⟩⟩

/-- Among the facts that actions assign are the roots of all targets. -/
theorem mem_assignedFacts? {actions : List Expr} {roots : List String} {target value : Expr}
    {root : String} (assigned : assignedFacts? actions = some roots)
    (member : assign target value ∈ actions) (isRoot : target.root? = some root) :
    root ∈ roots := by
  obtain ⟨found, collected, rfl⟩ := assignedFacts?_eq_some_iff.1 assigned
  rw [List.mem_eraseDups]
  clear assigned
  induction actions generalizing found with
  | nil => cases member
  | cons action actions inductionHypothesis =>
      rw [List.filterMapM_cons] at collected
      simp only [Option.bind_eq_bind, Option.bind_eq_some_iff] at collected
      obtain ⟨first?, isFirst, rest⟩ := collected
      cases first? with
      | none =>
          rcases List.mem_cons.1 member with rfl | later
          · simp [assignedRoot?, isRoot] at isFirst
          · exact inductionHypothesis later found rest
      | some first =>
          simp only [Option.bind_eq_some_iff, Option.pure_def, Option.some.injEq] at rest
          obtain ⟨others, collectedLater, rfl⟩ := rest
          rcases List.mem_cons.1 member with rfl | later
          · simp only [assignedRoot?, isRoot, Option.map_some, Option.some.injEq] at isFirst
            exact isFirst ▸ List.mem_cons_self
          · exact List.mem_cons_of_mem first (inductionHypothesis later others collectedLater)

end Expr

end Rulebook
