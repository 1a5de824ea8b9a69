import Rulebook.Proofs.Computation
import Rulebook.Proofs.Token.Pieces

/-!
# Lenient scans

Lenient scans, step by step, and what they have in common with strict ones: a strict scan is a
lenient one without malformed tokens. Which lexemes are found does not depend on the place at which
a text begins.
-/

namespace Rulebook.Scan

open Text (Position)

variable {place : Position} {c : Char} {cs : List Char}

theorem prepend_prepend (before behind : List Token) (scan : Scan) :
    (scan.prepend behind).prepend before = scan.prepend (before ++ behind) := by
  simp [prepend]

theorem lexemes_prepend (tokens : List Token) (scan : Scan) :
    (scan.prepend tokens).tokens.map Token.lexeme =
      tokens.map Token.lexeme ++ scan.tokens.map Token.lexeme :=
  List.map_append

theorem lenientFrom_nil : lenientFrom place [] = ⟨[], place⟩ := by
  rw [lenientFrom]

theorem lenientFrom_error {cause : LexicalFault} (failed : Piece.atStart c cs = .error cause) :
    lenientFrom place (c :: cs) =
      (lenientFrom (place.after c) cs).prepend [⟨.malformed cause, place⟩] := by
  rw [lenientFrom, failed]

theorem lenientFrom_ok {piece : Piece} {length : Nat}
    (found : Piece.atStart c cs = .ok (piece, length)) :
    lenientFrom place (c :: cs) =
      (lenientFrom (place.afterAll (c :: cs.take length)) (cs.drop length)).prepend
        (piece.tokens place) := by
  rw [lenientFrom, found]

theorem lenientFrom_blank (blank : Text.isBlank c = true) :
    lenientFrom place (c :: cs) = lenientFrom (place.after c) cs := by
  have gap (c : Char) (cs : List Char) (blank : Text.isBlank c = true) :
      Piece.atStart c cs = .ok (.gap, (cs.takeWhile Text.isBlank).length) := by
    simp only [Piece.atStart, blank, if_true]
  have unprepended (scan : Scan) : scan.prepend [] = scan := rfl
  rw [lenientFrom_ok (gap c cs blank), Piece.tokens, unprepended]
  cases cs with
  | nil => rfl
  | cons d ds =>
      cases blankNext : Text.isBlank d with
      | true =>
          rw [lenientFrom_ok (gap d ds blankNext), Piece.tokens, unprepended]
          simp [blankNext]
      | false => simp [blankNext]

/-- The lexemes of a text do not depend on the place where it stands. -/
theorem lexemes_lenientFrom (place other : Position) (cs : List Char) :
    (lenientFrom place cs).tokens.map Token.lexeme =
      (lenientFrom other cs).tokens.map Token.lexeme := by
  fun_induction lenientFrom place cs generalizing other with
  | case1 place => rw [lenientFrom_nil]
  | case2 place c cs cause failed inductionHypothesis =>
      rw [lenientFrom_error failed, lexemes_prepend, lexemes_prepend, inductionHypothesis]
      rfl
  | case3 place c cs piece length found inductionHypothesis =>
      rw [lenientFrom_ok found, lexemes_prepend, lexemes_prepend, inductionHypothesis]
      cases piece <;> rfl

/-- No name in a scan is empty. -/
theorem name_ne_empty_of_mem {name : String}
    (member : .name name ∈ (lenientFrom place cs).tokens.map Token.lexeme) : name ≠ "" := by
  fun_induction lenientFrom place cs with
  | case1 place => cases member
  | case2 place c cs cause failed inductionHypothesis =>
      rw [lexemes_prepend] at member
      rcases List.mem_append.1 member with isFirst | isLater
      · simp at isFirst
      · exact inductionHypothesis isLater
  | case3 place c cs piece length found inductionHypothesis =>
      rw [lexemes_prepend] at member
      rcases List.mem_append.1 member with isFirst | isLater
      · exact (pieceAt_of_atStart found).name_ne_empty place isFirst
      · exact inductionHypothesis isLater

/-- Whether a scan has no malformed tokens. -/
def IsSound (scan : Scan) : Prop :=
  ∀ fault, .malformed fault ∉ scan.tokens.map Token.lexeme

theorem isSound_prepend {tokens : List Token} {scan : Scan}
    (none : ∀ fault, .malformed fault ∉ tokens.map Token.lexeme) :
    (scan.prepend tokens).IsSound ↔ scan.IsSound := by
  simp only [IsSound, lexemes_prepend, List.mem_append, not_or]
  exact forall_congr' fun fault => and_iff_right (none fault)

/-- A strict scan finds what a lenient one finds without malformed tokens, and stops at the first
fault otherwise. -/
theorem strictFrom_eq_ok_iff {scan : Scan} :
    strictFrom place cs = .ok scan ↔ lenientFrom place cs = scan ∧ scan.IsSound := by
  fun_induction strictFrom place cs generalizing scan with
  | case1 place =>
      rw [lenientFrom_nil, Except.ok.injEq]
      constructor
      · rintro rfl
        exact ⟨rfl, fun fault => List.not_mem_nil⟩
      · exact And.left
  | case2 place c cs cause failed =>
      rw [lenientFrom_error failed]
      refine iff_of_false (fun same => nomatch same) ?_
      rintro ⟨rfl, sound⟩
      exact sound cause List.mem_cons_self
  | case3 place c cs piece length found inductionHypothesis =>
      have none := (pieceAt_of_atStart found).malformed_notMem place
      rw [lenientFrom_ok found]
      constructor
      · intro scanned
        obtain ⟨later, scannedLater, rfl⟩ := exists_of_map_eq_ok scanned
        obtain ⟨same, sound⟩ := inductionHypothesis.1 scannedLater
        rw [same]
        exact ⟨rfl, (isSound_prepend none).2 sound⟩
      · rintro ⟨rfl, sound⟩
        have soundLater := (isSound_prepend none).1 sound
        rw [inductionHypothesis.2 ⟨rfl, soundLater⟩]
        rfl

end Rulebook.Scan
