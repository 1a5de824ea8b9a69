import Rulebook.Yaml.Document

/-!
# How the lines of a document end

Returns, returns with a line feed and the next-line sign end lines as line feeds do. A document is
read the same whichever of them stand in it.
-/

namespace Rulebook.Yaml

variable {ending cs : List Char}

/-! ## Line feeds for all line ends -/

theorem normalized_cons {c : Char} (noReturn : c ≠ '\r') :
    normalized (c :: cs) = (if c = '\u0085' then '\n' else c) :: normalized cs := by
  rw [normalized.eq_2 _ _ fun _ return_ _ => noReturn return_]
  simp only [noReturn, false_or]

theorem normalized_eq_self (noReturn : '\r' ∉ cs) (noNextLine : '\u0085' ∉ cs) :
    normalized cs = cs := by
  induction cs with
  | nil => rfl
  | cons c cs inductionHypothesis =>
    simp only [List.mem_cons, not_or] at noReturn noNextLine
    rw [normalized_cons (Ne.symm noReturn.1), if_neg (Ne.symm noNextLine.1),
      inductionHypothesis noReturn.2 noNextLine.2]

/-- No returns and no next-line signs are left. -/
theorem ne_of_mem_normalized {c : Char} (member : c ∈ normalized cs) :
    c ≠ '\r' ∧ c ≠ '\u0085' := by
  fun_induction normalized cs with
  | case1 cs inductionHypothesis =>
    rcases List.mem_cons.mp member with rfl | behind
    · decide
    · exact inductionHypothesis behind
  | case2 d cs _ inductionHypothesis =>
    rcases List.mem_cons.mp member with rfl | behind
    · split
      · decide
      · exact not_or.mp ‹_›
    · exact inductionHypothesis behind
  | case3 => cases member

@[simp]
theorem normalized_normalized (cs : List Char) : normalized (normalized cs) = normalized cs :=
  normalized_eq_self (fun member => (ne_of_mem_normalized member).1 rfl)
    fun member => (ne_of_mem_normalized member).2 rfl

@[simp]
theorem all_normalized (cs : List Char) : (normalized cs).all isAllowed = cs.all isAllowed := by
  fun_induction normalized cs with
  | case1 cs inductionHypothesis =>
    rw [List.all_cons, List.all_cons, List.all_cons, inductionHypothesis]
    rfl
  | case2 c cs _ inductionHypothesis =>
    rw [List.all_cons, List.all_cons, inductionHypothesis]
    split
    · rename_i ends
      rcases ends with rfl | rfl <;> rfl
    · rfl
  | case3 => rfl

/-- Only what the line ends are read as counts. -/
theorem read_normalized (text : String) :
    read (String.ofList (normalized text.toList)) = read text := by
  simp only [read, String.toList_ofList, all_normalized, normalized_normalized]

/-! ## Other signs for line feeds -/

/-- The signs that end a line as a line feed does. -/
def lineEndings : List (List Char) :=
  [['\n'], ['\r'], ['\r', '\n'], ['\u0085']]

/-- A text with another sign for each line feed. -/
def withEnding (ending cs : List Char) : List Char :=
  cs.flatMap fun c => if c = '\n' then ending else [c]

private theorem withEnding_return_ne (rest : List Char) : withEnding ['\r'] cs ≠ '\n' :: rest := by
  cases cs with
  | nil => exact (List.cons_ne_nil '\n' rest).symm
  | cons c cs =>
    rw [withEnding, List.flatMap_cons]
    split
    · simp
    · simp_all

/-- Whatever sign stands for the line feeds of a text, they are line feeds again. -/
theorem normalized_withEnding (usual : ending ∈ lineEndings) (noReturn : '\r' ∉ cs) :
    normalized (withEnding ending cs) = normalized cs := by
  induction cs with
  | nil => rfl
  | cons c cs inductionHypothesis =>
    simp only [List.mem_cons, not_or] at noReturn
    have same := inductionHypothesis noReturn.2
    by_cases ends : c = '\n'
    · subst ends
      rw [normalized_cons (by decide), ← same, withEnding, List.flatMap_cons, if_pos rfl]
      simp only [lineEndings, List.mem_cons, List.not_mem_nil, or_false] at usual
      rcases usual with rfl | rfl | rfl | rfl
      · exact normalized_cons (by decide)
      · -- No line feed is left that might belong to the return.
        exact normalized.eq_2 '\r' _ fun rest _ begins => withEnding_return_ne rest begins
      · exact normalized.eq_1 _
      · exact normalized_cons (by decide)
    · rw [withEnding, List.flatMap_cons, if_neg ends, List.singleton_append,
        normalized_cons (Ne.symm noReturn.1), normalized_cons (Ne.symm noReturn.1)]
      exact congrArg _ same

/-- A document may end its lines by any of the signs. -/
theorem read_withEnding (usual : ending ∈ lineEndings) (noReturn : '\r' ∉ cs) :
    read (String.ofList (withEnding ending cs)) = read (String.ofList cs) := by
  rw [← read_normalized (String.ofList (withEnding ending cs)), String.toList_ofList,
    normalized_withEnding usual noReturn, ← read_normalized (String.ofList cs),
    String.toList_ofList]

end Rulebook.Yaml
