import Rulebook.Proofs.Yaml.TokenSteps
import Rulebook.Yaml.Token.Scan

/-!
# The tokens of a text

Since each token takes a character of the text, the number of steps that is allowed never runs out:
the tokens are those that the rules for single tokens give. They balance. In a text that is cut to
its end, all collections in block style are ended if all those in flow style are.
-/

namespace Rulebook.Yaml

namespace Layout

variable {cs : List Char} {layout next : Layout}

/-! ## Progress -/

/-- Passing over what stands between tokens keeps what holds there, and takes nothing back. -/
private theorem approach_passes (approached : layout.approach = .ok next) :
    next.cursor.rest.length ≤ layout.cursor.rest.length ∧ (layout.Sound cs → next.Sound cs) := by
  obtain ⟨middle, dropped, same⟩ := bind_eq_ok_iff.mp approached
  cases same
  have keeps : layout.skipGap.Keeps cs (middle.unwindTo middle.cursor.column) :=
    (keeps_dropStale dropped).trans (keeps_unwindTo _)
  refine ⟨?_, fun sound => keeps.sound ?_⟩
  · rw [keeps.cursor]
    exact Cursor.length_rest_upTo_le _ _
  · exact (keeps_allowKey _).sound
      (sound.move (sound.cursor.upTo _) (Cursor.offset_le_skip _ _))

private theorem finish_eq (steps : Nat) (layout : Layout) :
    layout.finish (steps + 1) =
      match layout.approach with
      | .error fault => layout.brokenBy fault
      | .ok next =>
        match if next.cursor.rest.isEmpty then next.closeAll else next.next with
        | .error fault => layout.brokenBy fault
        | .ok after =>
          if next.cursor.rest.isEmpty then after.tokens.reverse else after.finish steps :=
  rfl

/-- More steps than characters are never needed. -/
theorem finish_succ {steps : Nat} (enough : layout.cursor.rest.length < steps) :
    layout.finish (steps + 1) = layout.finish steps := by
  induction steps generalizing layout with
  | zero => exact absurd enough (Nat.not_lt_zero _)
  | succ steps inductionHypothesis =>
    rw [finish_eq (steps + 1), finish_eq steps]
    cases approached : layout.approach with
    | error fault => rfl
    | ok next =>
      have passes : _ ∧ (layout.Sound [] → next.Sound []) := approach_passes approached
      dsimp only
      by_cases ended : next.cursor.rest.isEmpty
      · simp only [ended]
        rfl
      · simp only [ended]
        cases cut : next.next with
        | error fault => rfl
        | ok after =>
          have advances : next.Advances [] after := advances_next cut
          have less := Nat.lt_of_lt_of_le advances.shorter passes.1
          simpa using inductionHypothesis (by omega)

/-- The tokens from a point on, with as many steps as there are characters left. -/
def tokensFrom (layout : Layout) : List Token :=
  layout.finish (layout.cursor.rest.length + 1)

theorem finish_eq_tokensFrom {steps : Nat} (enough : layout.cursor.rest.length < steps) :
    layout.finish steps = layout.tokensFrom := by
  induction enough with
  | refl => rfl
  | step enough inductionHypothesis => rw [finish_succ enough, inductionHypothesis]

/-- The tokens from a point on are those that the rules for single tokens give, however long the
text is. -/
theorem tokensFrom_eq (layout : Layout) :
    layout.tokensFrom =
      match layout.approach with
      | .error fault => layout.brokenBy fault
      | .ok next =>
        match if next.cursor.rest.isEmpty then next.closeAll else next.next with
        | .error fault => layout.brokenBy fault
        | .ok after =>
          if next.cursor.rest.isEmpty then after.tokens.reverse else after.tokensFrom := by
  rw [tokensFrom, finish_eq]
  cases approached : layout.approach with
  | error fault => rfl
  | ok next =>
    have passes : _ ∧ (layout.Sound [] → next.Sound []) := approach_passes approached
    dsimp only
    by_cases ended : next.cursor.rest.isEmpty
    · simp only [ended]
      rfl
    · simp only [ended]
      cases cut : next.next with
      | error fault => rfl
      | ok after =>
        have advances : next.Advances [] after := advances_next cut
        have less := Nat.lt_of_lt_of_le advances.shorter passes.1
        simpa using finish_eq_tokensFrom less

/-! ## Balance -/

/-- How many collections in block style tokens begin and do not end, and so for flow style. -/
structure Balanced (tokens : List Token) : Prop where
  blocks : 0 ≤ (tokens.map Token.blockDepth).sum
  flows : 0 ≤ (tokens.map Token.flowDepth).sum
  ended : (tokens.map Token.flowDepth).sum = 0 → (tokens.map Token.blockDepth).sum = 0

/-- Before the end of a text all collections in block style are ended, apart from those around one
in flow style. -/
private theorem outer_of_closeAll (sound : layout.Sound cs) (closed : layout.closeAll = .ok next)
    (noFlow : next.enclosing = []) : next.outer = [] := by
  obtain ⟨middle, dropped, same⟩ := bind_eq_ok_iff.mp closed
  cases same
  obtain ⟨_, -, same⟩ := bind_eq_ok_iff.mp dropped
  cases same
  change (layout.unwindTo (-1)).enclosing = [] at noFlow
  change (layout.unwindTo (-1)).outer = []
  unfold unwindTo at noFlow ⊢
  split at noFlow
  · rename_i flow
    exact absurd noFlow (by simpa [isFlow] using flow)
  · rename_i notFlow
    rw [if_neg notFlow]
    obtain ⟨indent, tokens, outer, ended⟩ : ∃ indent tokens outer,
        unwind (-1) layout.indent layout.tokens layout.outer = (indent, tokens, outer) :=
      ⟨_, _, _, rfl⟩
    obtain ⟨nested, stops, -⟩ := unwind_eq ended
    rw [ended]
    exact stops.elim (nested sound.indents).eq_nil id

private theorem broken_mem_brokenBy (layout : Layout) (fault : Fault) :
    .broken fault ∈ layout.brokenBy fault := by
  simp [brokenBy]

private theorem balanced_of_sound (sound : layout.Sound cs)
    (ended : layout.enclosing = [] → layout.outer = []) : Balanced layout.tokens.reverse := by
  have blocks : (layout.tokens.reverse.map Token.blockDepth).sum = layout.outer.length := by
    rw [List.map_reverse, List.sum_reverse, sound.blocks]
  have flows : (layout.tokens.reverse.map Token.flowDepth).sum = layout.enclosing.length := by
    rw [List.map_reverse, List.sum_reverse, sound.flows]
  refine ⟨by omega, by omega, fun none => ?_⟩
  have noFlow : layout.enclosing = [] := List.eq_nil_of_length_eq_zero (by omega)
  rw [blocks, ended noFlow]
  rfl

/-- The tokens of a text that is cut to its end balance. -/
theorem balanced_finish {steps : Nat} (sound : layout.Sound cs)
    (whole : ∀ fault, .broken fault ∉ layout.finish steps) : Balanced (layout.finish steps) := by
  induction steps generalizing layout with
  | zero => exact absurd (broken_mem_brokenBy layout _) (whole _)
  | succ steps inductionHypothesis =>
    rw [finish_eq] at whole ⊢
    cases approached : layout.approach with
    | error fault =>
      simp only [approached] at whole
      exact absurd (broken_mem_brokenBy layout fault) (whole fault)
    | ok next =>
      have nextSound := (approach_passes approached).2 sound
      simp only [approached] at whole ⊢
      by_cases ended : next.cursor.rest.isEmpty
      · simp only [ended, if_true] at whole ⊢
        cases closed : next.closeAll with
        | error fault =>
          simp only [closed] at whole
          exact absurd (broken_mem_brokenBy layout fault) (whole fault)
        | ok after =>
          simp only [closed] at whole ⊢
          exact balanced_of_sound ((keeps_closeAll closed).sound nextSound)
            (outer_of_closeAll nextSound closed)
      · simp only [ended] at whole ⊢
        cases cut : next.next with
        | error fault =>
          simp only [cut] at whole
          exact absurd (broken_mem_brokenBy layout fault) (whole fault)
        | ok after =>
          simp only [cut] at whole ⊢
          exact inductionHypothesis ((advances_next cut).sound nextSound) whole

end Layout

/-- The beginning of a text, behind a byte order mark if there is one. -/
def Layout.startBehindMark (cs : List Char) : Layout :=
  if cs.head? = some byteOrderMark then (Layout.start cs).skip 1 else Layout.start cs

private theorem sound_startBehindMark (cs : List Char) : (Layout.startBehindMark cs).Sound cs := by
  have sound := Layout.sound_start cs
  unfold Layout.startBehindMark
  split
  · exact sound.move (sound.cursor.skip 1) (Cursor.offset_le_skip _ _)
  · exact sound

/-- The tokens of a text do not depend on the number of steps that is allowed. -/
theorem tokensOf_eq (cs : List Char) : tokensOf cs = (Layout.startBehindMark cs).tokensFrom := by
  have le : (Layout.startBehindMark cs).cursor.rest.length ≤ cs.length := by
    rw [(sound_startBehindMark cs).cursor.rest]
    exact (List.drop_sublist _ _).length_le
  exact Layout.finish_eq_tokensFrom (Nat.lt_succ_of_le le)

/-- Where a text is cut to its end, the collections in block style are all ended if those in flow
style are. -/
theorem balanced_tokensOf {cs : List Char} (whole : ∀ fault, .broken fault ∉ tokensOf cs) :
    Layout.Balanced (tokensOf cs) :=
  Layout.balanced_finish (sound_startBehindMark cs) whole

end Rulebook.Yaml
