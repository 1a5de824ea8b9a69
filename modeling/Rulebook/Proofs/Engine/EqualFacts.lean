import Rulebook.Proofs.Engine.Turn
import Rulebook.Proofs.Expr.Matching

/-!
# Runs on equal facts

What refraction can rely on. A rule is passed over when the facts that its condition mentions are equal
to those at its last attempt. Its condition then has the same outcome as it had at that attempt.
-/

namespace Rulebook

namespace Run

variable {rule : Rule} {history : History} {before store : Store}

/-- A rule is suppressed exactly while the facts that it reads are equal to those of its last
attempt. -/
theorem suppressed_iff_equalOn
    (recorded : history.get? rule.name = some (Signature.ofRule rule before)) :
    Suppressed true rule history store ↔ Store.EqualOn rule.condition.references before store := by
  rw [Suppressed, isSuppressed, recorded]
  exact Signature.same_ofRule_iff rule before store

end Run

/-- On two stores with equal facts under all names that an expression mentions, it has the same fault,
or values of one kind that are equal or both no numbers; as a condition it has the same outcome. So
has the condition of a rule that is passed over, on the stores of now and of its last attempt. -/
theorem Expr.alike_of_equalOn {store other : Store} (wellFormed : store.WellFormed)
    (wellFormedOther : other.WellFormed) :
    (∀ e : Expr, Store.EqualOn e.references store other →
      Alike (fun result otherResult =>
          result.kind = otherResult.kind ∧ result.Matches otherResult)
        (e.eval store) (e.eval other) ∧
      e.evalCondition store = e.evalCondition other) ∧
    ∀ (rule : Rule) (history : History),
      history.get? rule.name = some (Signature.ofRule rule store) →
      Run.Suppressed true rule history other →
      rule.condition.evalCondition store = rule.condition.evalCondition other := by
  constructor
  · intro e equal
    refine ⟨?_, evalCondition_eq wellFormed wellFormedOther equal⟩
    have alike := eval_alike wellFormed wellFormedOther equal
    generalize e.eval store = outcome at alike ⊢
    generalize e.eval other = otherOutcome at alike ⊢
    cases alike with
    | error fault => exact .error fault
    | ok matched => exact .ok ⟨matched.kind_eq, matched⟩
  · intro rule history recorded suppressed
    exact evalCondition_eq wellFormed wellFormedOther
      ((Run.suppressed_iff_equalOn recorded).1 suppressed)

/-! ### A point that is written again in another way -/

def withPoint (coordinates : List (String × Value)) : Store :=
  (∅ : Store).set "point" (.object coordinates)

private def firstPoint : Store :=
  withPoint [("x", .number 0), ("y", .number 1)]

/-- The same point with its coordinates in another order, and a zero of the other sign. -/
private def secondPoint : Store :=
  withPoint [("y", .number 1), ("x", .number (-0))]

private def onAxis : Rule :=
  .undescribed "OnAxis" 0
    (.binary .and
      (.binary .equal (.field (.fact "point") "x") (.number 0))
      (.binary (.comparison .less) (.field (.fact "point") "x") (.field (.fact "point") "y")))
    []

theorem wellFormed_withPoint {coordinates : List (String × Value)}
    (distinct : (Entries.names coordinates).Nodup)
    (wellFormed : ∀ coordinate ∈ coordinates, coordinate.2.WellFormed) :
    (withPoint coordinates).WellFormed := by
  have empty : (∅ : Store).WellFormed := by
    intro name value isFact
    cases isFact
  exact Store.WellFormed.set empty (.object distinct wellFormed)

theorem Expr.alike_of_equalOn_onAxis :
    Store.EqualOn onAxis.condition.references firstPoint secondPoint ∧
      Alike (fun result otherResult =>
          result.kind = otherResult.kind ∧ result.Matches otherResult)
        (onAxis.condition.eval firstPoint) (onAxis.condition.eval secondPoint) ∧
      onAxis.condition.evalCondition firstPoint = onAxis.condition.evalCondition secondPoint ∧
      ∃ history : History,
        history.get? onAxis.name = some (Signature.ofRule onAxis firstPoint) ∧
        Run.Suppressed true onAxis history secondPoint ∧
        onAxis.condition.evalCondition firstPoint =
          onAxis.condition.evalCondition secondPoint := by
  have wellFormed : firstPoint.WellFormed :=
    wellFormed_withPoint (by decide) (by simp [Value.WellFormed.number])
  have wellFormedSecond : secondPoint.WellFormed :=
    wellFormed_withPoint (by decide) (by simp [Value.WellFormed.number])
  have equal : Store.EqualOn onAxis.condition.references firstPoint secondPoint := by
    rw [Store.EqualOn]
    decide +kernel
  let history : History :=
    (∅ : History).set onAxis.name (Signature.ofRule onAxis firstPoint)
  have recorded : history.get? onAxis.name = some (Signature.ofRule onAxis firstPoint) :=
    Table.get?_set_self _ _ _
  have suppressed : Run.Suppressed true onAxis history secondPoint :=
    (Run.suppressed_iff_equalOn recorded).2 equal
  obtain ⟨evaluated, outcome⟩ := Expr.alike_of_equalOn wellFormed wellFormedSecond
  obtain ⟨alike, sameOutcome⟩ := evaluated onAxis.condition equal
  exact ⟨equal, alike, sameOutcome, history, recorded, suppressed,
    outcome onAxis history recorded suppressed⟩

end Rulebook
