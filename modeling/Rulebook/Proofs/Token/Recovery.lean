import Rulebook.Proofs.Token.Layout

/-!
# Recovery of lenient scans

Lenient scans go on behind every fault: up to the first one they find what a strict scan finds, and
behind each they find what a scan of the characters behind it alone finds. Each token begins behind
the one before it, although a fault takes the scan back to where it began.
-/

namespace Rulebook

open Text (Position)

/-! ## Places counted from another place -/

namespace Text.Position

/-- A place in a text that itself begins at a place. Columns are moved on the first line only. -/
def shiftedBy (place base : Position) : Position where
  offset := base.offset + place.offset
  line := base.line + (place.line - 1)
  column := if place.line = 1 then base.column + (place.column - 1) else place.column

private theorem shiftedBy_after {place : Position} (base : Position) (c : Char) (line : 1 ≤ place.line)
    (column : 1 ≤ place.column) :
    (place.after c).shiftedBy base = (place.shiftedBy base).after c := by
  by_cases newline : c = '\n'
  · have notFirst : place.line ≠ 0 := by omega
    have sameLine : base.line + place.line = base.line + (place.line - 1) + 1 := by omega
    simp [after, shiftedBy, newline, notFirst, sameLine, Nat.add_assoc]
  · have sameColumn : base.column + place.column = base.column + (place.column - 1) + 1 := by omega
    by_cases first : place.line = 1 <;>
      simp [after, shiftedBy, newline, first, sameColumn, Nat.add_assoc]

/-- Places behind a text are those of the text, shifted by where it begins. -/
theorem afterAll_eq_shiftedBy (base : Position) (cs : List Char) :
    base.afterAll cs = (start.afterAll cs).shiftedBy base := by
  induction cs using List.reverseRecOn with
  | nil => rfl
  | append_singleton cs c inductionHypothesis =>
      have line : 1 ≤ (start.afterAll cs).line := by
        rw [line_afterAll_start]
        omega
      have column : 1 ≤ (start.afterAll cs).column := by
        rw [column_afterAll_start]
        omega
      rw [afterAll_append, afterAll_append, inductionHypothesis]
      exact (shiftedBy_after base c line column).symm

end Text.Position

namespace Scan

variable {place : Position} {c : Char} {cs : List Char} {scan : Scan}

def shiftedBy (scan : Scan) (base : Position) : Scan where
  tokens := scan.tokens.map fun token => ⟨token.lexeme, token.place.shiftedBy base⟩
  finish := scan.finish.shiftedBy base

theorem shiftedBy_prepend (tokens : List Token) (scan : Scan) (base : Position) :
    (scan.prepend tokens).shiftedBy base =
      (scan.shiftedBy base).prepend
        (tokens.map fun token => ⟨token.lexeme, token.place.shiftedBy base⟩) := by
  rw [shiftedBy, prepend, List.map_append]
  rfl

/-- What is found behind some characters does not depend on where these begin. -/
theorem lenientFrom_afterAll (base : Position) (before cs : List Char) :
    lenientFrom (base.afterAll before) cs =
      (lenientFrom (Position.start.afterAll before) cs).shiftedBy base := by
  generalize begins : Position.start.afterAll before = place
  fun_induction lenientFrom place cs generalizing before with
  | case1 place =>
      rw [lenientFrom_nil, Position.afterAll_eq_shiftedBy, begins]
      rfl
  | case2 place c cs cause failed inductionHypothesis =>
      have later := inductionHypothesis (before ++ [c])
        (by rw [Position.afterAll_append, begins]; rfl)
      rw [Position.afterAll_append] at later
      rw [lenientFrom_error failed, shiftedBy_prepend, Position.afterAll_eq_shiftedBy base before,
        begins, ← later, Position.afterAll_eq_shiftedBy base before, begins]
      rfl
  | case3 place c cs piece length found inductionHypothesis =>
      have later := inductionHypothesis (before ++ (c :: cs.take length))
        (by rw [Position.afterAll_append, begins])
      rw [Position.afterAll_append] at later
      rw [lenientFrom_ok found, shiftedBy_prepend, later, Position.afterAll_eq_shiftedBy base before,
        begins]
      cases piece <;> rfl

private theorem lenientFrom_eq_shiftedBy (base : Position) (cs : List Char) :
    lenientFrom base cs = (lenientFrom Position.start cs).shiftedBy base :=
  lenientFrom_afterAll base [] cs

/-! ## Progress -/

/-- The offsets at which tokens begin, with the end of the text. -/
def offsets (scan : Scan) : List Nat :=
  scan.tokens.map (·.place.offset) ++ [scan.finish.offset]

theorem offset_lt_afterAll (place : Position) (c : Char) (cs : List Char) :
    place.offset < (place.afterAll (c :: cs)).offset := by
  rw [Position.offset_afterAll, List.length_cons]
  omega

theorem le_of_mem_offsets {offset : Nat} (member : offset ∈ (lenientFrom place cs).offsets) :
    place.offset ≤ offset := by
  fun_induction lenientFrom place cs with
  | case1 place => exact Nat.le_of_eq (List.mem_singleton.1 member).symm
  | case2 place c cs cause failed inductionHypothesis =>
      rcases List.mem_cons.1 member with rfl | later
      · exact Nat.le_refl _
      · exact Nat.le_of_lt ((offset_lt_afterAll place c []).trans_le (inductionHypothesis later))
  | case3 place c cs piece length found inductionHypothesis =>
      have further := offset_lt_afterAll place c (cs.take length)
      cases piece with
      | gap => exact Nat.le_of_lt (further.trans_le (inductionHypothesis member))
      | lexeme lexeme =>
          rcases List.mem_cons.1 member with rfl | later
          · exact Nat.le_refl _
          · exact Nat.le_of_lt (further.trans_le (inductionHypothesis later))

/-- Each token begins behind the one before it. -/
theorem pairwise_offsets (place : Position) (cs : List Char) :
    (lenientFrom place cs).offsets.Pairwise (· < ·) := by
  fun_induction lenientFrom place cs with
  | case1 place => exact List.pairwise_singleton _ _
  | case2 place c cs cause failed inductionHypothesis =>
      refine List.Pairwise.cons (fun offset later => ?_) inductionHypothesis
      exact (offset_lt_afterAll place c []).trans_le (le_of_mem_offsets later)
  | case3 place c cs piece length found inductionHypothesis =>
      cases piece with
      | gap => exact inductionHypothesis
      | lexeme lexeme =>
          refine List.Pairwise.cons (fun offset later => ?_) inductionHypothesis
          exact (offset_lt_afterAll place c (cs.take length)).trans_le (le_of_mem_offsets later)

/-- A scan ends at the end of its text, whatever is wrong in it. -/
theorem finish_lenientFrom (place : Position) (cs : List Char) :
    (lenientFrom place cs).finish = place.afterAll cs := by
  fun_induction lenientFrom place cs with
  | case1 place => rfl
  | case2 place c cs cause failed inductionHypothesis => exact inductionHypothesis
  | case3 place c cs piece length found inductionHypothesis =>
      rw [prepend, inductionHypothesis, ← Position.afterAll_append, List.cons_append,
        List.take_append_drop]

/-! ## Faults -/

/-- The fault at which a strict scan ends is the first one that a lenient scan finds. -/
theorem exists_first_malformed {fault : Fault} (failed : strictFrom place cs = .error fault) :
    ∃ before behind, (lenientFrom place cs).tokens =
        before ++ ⟨.malformed fault.cause, fault.place⟩ :: behind ∧
      ∀ cause, .malformed cause ∉ before.map Token.lexeme := by
  fun_induction strictFrom place cs with
  | case1 place => cases failed
  | case2 place c cs cause noPiece =>
      cases failed
      rw [lenientFrom_error noPiece]
      exact ⟨[], _, rfl, fun _ => List.not_mem_nil⟩
  | case3 place c cs piece length found inductionHypothesis =>
      cases scanned : strictFrom (place.afterAll (c :: cs.take length)) (cs.drop length) with
      | ok later =>
          rw [scanned] at failed
          cases failed
      | error laterFault =>
          rw [scanned] at failed
          cases failed
          obtain ⟨before, behind, tokens, sound⟩ := inductionHypothesis scanned
          have none := (pieceAt_of_atStart found).malformed_notMem place
          refine ⟨piece.tokens place ++ before, behind, ?_, fun cause member => ?_⟩
          · rw [lenientFrom_ok found, prepend, tokens, List.append_assoc]
          · rw [List.map_append] at member
            rcases List.mem_append.1 member with isFirst | isLater
            · exact none cause isFirst
            · exact sound cause isLater

/-- Behind a fault a scan finds what it would find if it began behind the character of the fault. -/
theorem exists_behind_malformed {before behind : List Token} {cause : LexicalFault}
    {faultPlace : Position}
    (tokens : (lenientFrom place cs).tokens = before ++ ⟨.malformed cause, faultPlace⟩ :: behind) :
    ∃ front d rest, cs = front ++ d :: rest ∧ faultPlace = place.afterAll front ∧
      (lenientFrom (faultPlace.after d) rest).tokens = behind := by
  fun_induction lenientFrom place cs generalizing before with
  | case1 place => simp at tokens
  | case2 place c cs firstCause failed inductionHypothesis =>
      cases before with
      | nil =>
          injection tokens with isFirst isLater
          injection isFirst with _ samePlace
          exact ⟨[], c, cs, rfl, samePlace.symm, samePlace ▸ isLater⟩
      | cons first before =>
          injection tokens with _ isLater
          obtain ⟨front, d, rest, rfl, samePlace, found⟩ := inductionHypothesis isLater
          exact ⟨c :: front, d, rest, rfl, samePlace, found⟩
  | case3 place c cs piece length found inductionHypothesis =>
      have later : ∃ before', (lenientFrom (place.afterAll (c :: cs.take length))
          (cs.drop length)).tokens = before' ++ ⟨.malformed cause, faultPlace⟩ :: behind := by
        cases piece with
        | gap => exact ⟨before, tokens⟩
        | lexeme lexeme =>
            cases before with
            | nil =>
                injection tokens with isFirst _
                have none := (pieceAt_of_atStart found).malformed_notMem place cause
                exact absurd (List.mem_singleton.2 (congrArg Token.lexeme isFirst).symm) none
            | cons first before =>
                injection tokens with _ isLater
                exact ⟨before, isLater⟩
      obtain ⟨before', isLater⟩ := later
      obtain ⟨front, d, rest, dropped, samePlace, found⟩ := inductionHypothesis isLater
      refine ⟨(c :: cs.take length) ++ front, d, rest, ?_, ?_, found⟩
      · rw [List.append_assoc, ← dropped, List.cons_append, List.take_append_drop]
      · rw [samePlace, ← Position.afterAll_append]

/-- A lenient scan ends at the end of every text, with tokens that begin one behind the other. It is
the strict scan of a text that has one; the first fault of any other text is the one at which the
strict scan ends; and behind every fault stands the lenient scan of what follows its character. -/
theorem lenient_recovers (text : String) :
    (lenient text).offsets.Pairwise (· < ·) ∧
    (lenient text).finish.offset = text.toList.length ∧
    (lenient text).finish.IsIn text.toList ∧
    (∀ scan, strict text = .ok scan → lenient text = scan) ∧
    (∀ fault, strict text = .error fault →
      ∃ before behind, (lenient text).tokens =
          before ++ ⟨.malformed fault.cause, fault.place⟩ :: behind ∧
        ∀ cause, .malformed cause ∉ before.map Token.lexeme) ∧
    ∀ before cause place behind,
      (lenient text).tokens = before ++ ⟨.malformed cause, place⟩ :: behind →
      ⟨behind, (lenient text).finish⟩ =
        (lenient (String.ofList (text.toList.drop (place.offset + 1)))).shiftedBy
          (Position.start.afterAll (text.toList.take (place.offset + 1))) := by
  have finish : (lenient text).finish = Position.start.afterAll text.toList :=
    finish_lenientFrom _ _
  refine ⟨pairwise_offsets _ _, ?_, ?_, fun scan scanned => (strictFrom_eq_ok_iff.1 scanned).1,
    fun fault failed => exists_first_malformed failed, ?_⟩
  · rw [finish, offset_afterAll_start]
  · rw [finish]
    simpa using isIn_afterAll_start text.toList []
  · intro before cause place behind tokens
    obtain ⟨front, d, rest, whole, isPlace, found⟩ := exists_behind_malformed tokens
    have offset : place.offset + 1 = (front ++ [d]).length := by
      rw [isPlace, offset_afterAll_start, List.length_append, List.length_singleton]
    rw [← List.singleton_append, ← List.append_assoc] at whole
    have base : place.after d = Position.start.afterAll (front ++ [d]) := by
      rw [Position.afterAll_append, ← isPlace]
      rfl
    have later : lenientFrom (place.after d) rest =
        (lenient (String.ofList rest)).shiftedBy (Position.start.afterAll (front ++ [d])) := by
      rw [lenient, String.toList_ofList, ← lenientFrom_eq_shiftedBy, base]
    have sameFinish : (lenient text).finish = (lenientFrom (place.after d) rest).finish := by
      rw [finish, finish_lenientFrom, base, whole, Position.afterAll_append]
    rw [offset, whole, List.take_left, List.drop_left, ← later, ← found, sameFinish]

/-- The text of two names with a character between them that begins no token. -/
private def strayText : String :=
  "a\n# b"

/-- The lenient scan of this text goes on behind the stray character, where a strict one ends. -/
theorem lenient_recovers_strayText :
    strict strayText = .error ⟨.unexpectedCharacter '#', ⟨2, 2, 1⟩⟩ ∧
      (∃ before behind, (lenient strayText).tokens =
          before ++ ⟨.malformed (.unexpectedCharacter '#'), ⟨2, 2, 1⟩⟩ :: behind ∧
        (∀ cause, .malformed cause ∉ before.map Token.lexeme) ∧
        ⟨behind, (lenient strayText).finish⟩ = (lenient " b").shiftedBy ⟨3, 2, 2⟩) ∧
      ∃ scan, strict "a" = .ok scan ∧ lenient "a" = scan := by
  have failed : strict strayText = .error ⟨.unexpectedCharacter '#', ⟨2, 2, 1⟩⟩ :=
    eq_error_of_fault? (by decide +kernel)
  obtain ⟨-, -, -, -, firstFault, behindFaults⟩ := lenient_recovers strayText
  obtain ⟨before, behind, tokens, sound⟩ := firstFault _ failed
  refine ⟨failed, ⟨before, behind, tokens, sound, behindFaults _ _ _ _ tokens⟩, ?_⟩
  have accepted : (strict "a").toOption.isSome = true := by decide +kernel
  cases scanned : strict "a" with
  | error fault =>
      rw [scanned] at accepted
      cases accepted
  | ok scan => exact ⟨scan, rfl, (lenient_recovers "a").2.2.2.1 scan scanned⟩

end Scan

end Rulebook
