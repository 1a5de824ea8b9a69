import Rulebook.Proofs.Engine.Turn

/-!
# Runs in step

Runs in step. Where each turn keeps two runs related, and changes the facts in both or in neither,
so does each pass; and where each pass does, the runs have as many passes and both end at their
bounds or both at rest.
-/

namespace Rulebook

namespace Run

variable {refraction : Bool} {pass otherPass : Nat} {rules others : List Rule} {run other : Run}
  {related : Run → Run → Prop}

/-- `InStep related result other` means that two turns or passes lead to related runs, and that the
facts may have changed in both or in neither. -/
structure InStep (related : Run → Run → Prop) (result other : Run × Bool) : Prop where
  related : related result.1 other.1
  changed : result.2 = other.2

theorem inStep_cons {rule : Rule}
    (turn : InStep related (takeTurn refraction pass rule run)
      (takeTurn refraction otherPass rule other))
    (later : InStep related (takePass refraction pass rules (takeTurn refraction pass rule run).1)
      (takePass refraction otherPass others (takeTurn refraction otherPass rule other).1)) :
    InStep related (takePass refraction pass (rule :: rules) run)
      (takePass refraction otherPass (rule :: others) other) := by
  rw [takePass_cons, takePass_cons, turn.changed, later.changed]
  exact ⟨later.related, rfl⟩

/-- Runs that stay in step for each turn stay in step for a pass. -/
theorem inStep_takePass
    (turn : ∀ rule ∈ rules, ∀ run other, related run other →
      InStep related (takeTurn refraction pass rule run) (takeTurn refraction otherPass rule other))
    (areRelated : related run other) :
    InStep related (takePass refraction pass rules run)
      (takePass refraction otherPass rules other) := by
  induction rules generalizing run other with
  | nil => exact ⟨areRelated, rfl⟩
  | cons rule rules inductionHypothesis =>
      have first := turn rule List.mem_cons_self run other areRelated
      have turnLater := fun later member => turn later (List.mem_cons_of_mem rule member)
      exact inStep_cons first (inductionHypothesis turnLater first.related)

/-- Runs whose passes are in step end in step. Their passes may have other numbers. -/
theorem takePasses_inStep {made otherMade : Nat} (allowed : Nat)
    (pass : ∀ step run other, related run other →
      InStep related (takePass refraction (made + step) rules run)
        (takePass refraction (otherMade + step) others other))
    (areRelated : related run other) :
    let finished := takePasses refraction rules allowed made run
    let otherFinished := takePasses refraction others allowed otherMade other
    related finished.run otherFinished.run ∧
      finished.passes + otherMade = otherFinished.passes + made ∧
      finished.boundReached = otherFinished.boundReached := by
  induction allowed generalizing made otherMade run other with
  | zero => exact ⟨areRelated, Nat.add_comm made otherMade, rfl⟩
  | succ allowed inductionHypothesis =>
      obtain ⟨relatedAfter, sameFlag⟩ := pass 1 run other areRelated
      cases changed : (takePass refraction (made + 1) rules run).2 with
      | true =>
          -- the passes that are left are counted from the one that was made
          have passLater : ∀ step run other, related run other →
              InStep related (takePass refraction (made + 1 + step) rules run)
                (takePass refraction (otherMade + 1 + step) others other) := by
            intro step
            rw [Nat.add_assoc, Nat.add_assoc]
            exact pass (1 + step)
          obtain ⟨relatedLast, samePasses, sameEnd⟩ := inductionHypothesis passLater relatedAfter
          rw [takePasses_of_changed changed, takePasses_of_changed (sameFlag ▸ changed)]
          exact ⟨relatedLast, by omega, sameEnd⟩
      | false =>
          rw [takePasses_of_unchanged changed, takePasses_of_unchanged (sameFlag ▸ changed)]
          exact ⟨relatedAfter, by show made + 1 + otherMade = otherMade + 1 + made; omega, rfl⟩

end Run

end Rulebook
