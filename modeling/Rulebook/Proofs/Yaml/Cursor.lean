import Rulebook.Yaml.Cursor

/-!
# Places in a text

A cursor that was moved from the beginning of a text on stands where its offset says: what is left
is the text behind the offset, the line is the number of line ends before it, and the column the
number of characters since the last one. So the offset alone tells all of it.
-/

namespace Rulebook.Yaml

namespace Cursor

variable {cs rest : List Char} {cursor other : Cursor}

/-! ## Moving on -/

@[simp]
theorem rest_step (cursor : Cursor) : cursor.step.rest = cursor.rest.drop 1 := by
  unfold step
  split
  · rename_i ended
    rw [ended, List.drop_nil]
  · rename_i c cs begins
    rw [begins]
    split <;> rfl

@[simp]
theorem rest_skip (cursor : Cursor) (count : Nat) :
    (cursor.skip count).rest = cursor.rest.drop count := by
  induction count generalizing cursor with
  | zero => rfl
  | succ count inductionHypothesis =>
    rw [skip, inductionHypothesis, rest_step, List.drop_drop, Nat.add_comm]

/-- A cursor that is moved to a place behind it stands there. -/
theorem rest_upTo (suffix : rest <:+ cursor.rest) : (cursor.upTo rest).rest = rest := by
  rw [upTo, rest_skip]
  exact (List.suffix_iff_eq_drop.mp suffix).symm

theorem length_rest_upTo_le (cursor : Cursor) (rest : List Char) :
    (cursor.upTo rest).rest.length ≤ cursor.rest.length := by
  rw [upTo, rest_skip]
  exact (List.drop_sublist _ _).length_le

private theorem offset_le_step (cursor : Cursor) : cursor.offset ≤ cursor.step.offset := by
  unfold step
  split
  · exact Nat.le_refl _
  · split <;> exact Nat.le_succ _

theorem offset_le_skip (cursor : Cursor) (count : Nat) :
    cursor.offset ≤ (cursor.skip count).offset := by
  induction count generalizing cursor with
  | zero => exact Nat.le_refl _
  | succ count inductionHypothesis =>
    exact Nat.le_trans cursor.offset_le_step (inductionHypothesis cursor.step)

/-! ## Where a cursor stands -/

/-- A cursor stands in a text at its offset. Line ends are counted for the line, and what stands
behind the last of them, apart from byte order marks, for the column. -/
structure Within (cs : List Char) (cursor : Cursor) : Prop where
  rest : cursor.rest = cs.drop cursor.offset
  offset_le : cursor.offset ≤ cs.length
  line : cursor.line = (cs.take cursor.offset).countP isBreak
  column : cursor.column =
    ((cs.take cursor.offset).reverse.takeWhile (!isBreak ·)).countP (· != byteOrderMark)

theorem within_start (cs : List Char) : (start cs).Within cs :=
  ⟨rfl, Nat.zero_le _, rfl, rfl⟩

/-- In one text the offset tells the whole place. -/
theorem Within.unique (within : cursor.Within cs) (otherWithin : other.Within cs)
    (offsets : cursor.offset = other.offset) : cursor = other := by
  obtain ⟨rest, -, line, column⟩ := within
  obtain ⟨otherRest, -, otherLine, otherColumn⟩ := otherWithin
  rw [← offsets] at otherRest otherLine otherColumn
  cases cursor
  cases other
  simp_all

/-- A step takes one character, and a line end begins a line. -/
theorem Within.step (within : cursor.Within cs) : cursor.step.Within cs := by
  obtain ⟨rest, offset_le, line, column⟩ := within
  unfold Cursor.step
  split
  · rename_i ended
    exact ⟨rest, offset_le, line, column⟩
  · rename_i c behind begins
    rw [begins] at rest
    have inText : cursor.offset < cs.length := by
      have counted := congrArg List.length rest
      rw [List.length_cons, List.length_drop] at counted
      omega
    have taken : cs.take (cursor.offset + 1) = cs.take cursor.offset ++ [c] := by
      rw [List.take_add_one, ← List.head?_drop, ← rest]
      rfl
    have dropped : behind = cs.drop (cursor.offset + 1) := by
      rw [← List.drop_drop, ← rest]
      rfl
    by_cases isEnd : isBreak c = true
    · rw [if_pos isEnd]
      exact ⟨dropped, inText, by simp [taken, line, isEnd], by simp [taken, isEnd]⟩
    · rw [if_neg isEnd]
      refine ⟨dropped, inText, by simp [taken, line, isEnd], ?_⟩
      have run : ((cs.take cursor.offset ++ [c]).reverse.takeWhile (!isBreak ·)) =
          c :: (cs.take cursor.offset).reverse.takeWhile (!isBreak ·) := by
        simp [isEnd]
      rw [taken, run, List.countP_cons, ← column]
      by_cases mark : c = byteOrderMark <;> simp [mark]

theorem Within.skip (within : cursor.Within cs) (count : Nat) : (cursor.skip count).Within cs := by
  induction count generalizing cursor with
  | zero => exact within
  | succ count inductionHypothesis => exact inductionHypothesis within.step

theorem Within.upTo (within : cursor.Within cs) (rest : List Char) :
    (cursor.upTo rest).Within cs :=
  within.skip _

end Cursor

end Rulebook.Yaml
