import Rulebook.Yaml.Scalar.Block
import Rulebook.Yaml.Scalar.Unquoted
import Rulebook.Yaml.Property

/-!
# What is left behind a token

The readers of scalars, anchors, tags and directives take characters from the beginning of a text
and leave the rest of it as it is. A tag takes its mark at least, and a scalar without quotes takes
a character wherever one may begin.
-/

namespace Rulebook.Yaml

variable {cs rest : List Char}

/-! ## Scalars in quotes -/

theorem readSingle_suffix {quoting : Quoting} {text : Text.HalfText}
    (read : readSingle quoting cs = .ok (text, rest)) : rest <:+ cs := by
  fun_induction readSingle quoting cs with
  | case1 => cases read
  | case2 quoting cs inductionHypothesis =>
    exact (inductionHypothesis read).trans ⟨['\'', '\''], rfl⟩
  | case3 quoting c cs =>
    cases read
    exact List.suffix_cons _ _
  | case4 => cases read
  | case5 quoting c cs _ _ _ _ inductionHypothesis =>
    exact (inductionHypothesis read).trans (List.suffix_cons _ _)
  | case6 quoting c cs _ _ _ _ inductionHypothesis =>
    exact (inductionHypothesis read).trans (List.suffix_cons _ _)
  | case7 quoting c cs _ _ _ _ inductionHypothesis =>
    exact (inductionHypothesis read).trans (List.suffix_cons _ _)

theorem readDouble_suffix {quoting : Quoting} {text : Text.HalfText}
    (read : readDouble quoting cs = .ok (text, rest)) : rest <:+ cs := by
  have behind {c d : Char} {cs : List Char} : cs <:+ c :: d :: cs := ⟨[c, d], rfl⟩
  fun_induction readDouble quoting cs with
  | case1 => cases read
  | case2 => cases read
  | case3 quoting c cs _ _ inductionHypothesis => exact (inductionHypothesis read).trans behind
  | case4 quoting c cs _ meant _ inductionHypothesis =>
    exact (inductionHypothesis read).trans behind
  | case5 quoting c cs _ width _ _ code _ inductionHypothesis =>
    exact (inductionHypothesis read).trans ((List.drop_suffix width cs).trans behind)
  | case6 => cases read
  | case7 => cases read
  | case8 =>
    cases read
    exact List.suffix_cons _ _
  | case9 => cases read
  | case10 quoting c cs _ _ _ _ inductionHypothesis =>
    exact (inductionHypothesis read).trans (List.suffix_cons _ _)
  | case11 quoting c cs _ _ _ _ inductionHypothesis =>
    exact (inductionHypothesis read).trans (List.suffix_cons _ _)
  | case12 quoting c cs _ _ _ _ inductionHypothesis =>
    exact (inductionHypothesis read).trans (List.suffix_cons _ _)

/-! ## Scalars without quotes -/

/-- A scalar without quotes leaves the rest of the text as it is. -/
theorem readUnquoted_suffix (flow : Bool) (indent : Int) (cs : List Char) :
    (readUnquoted flow indent cs).rest <:+ cs := by
  fun_induction readUnquoted flow indent cs with
  | case1 cs _ gap => exact (readGap_suffix _).trans (List.drop_suffix _ _)
  | case2 cs _ gap => exact (readGap_suffix _).trans (List.drop_suffix _ _)
  | case3 cs _ gap _ _ more _ inductionHypothesis =>
    exact inductionHypothesis.trans ((readGap_suffix _).trans (List.drop_suffix _ _))
  | case4 => exact List.suffix_rfl

private theorem wordLength_pos {flow : Bool} (begins : beginsUnquoted flow cs = true) :
    0 < wordLength flow cs := by
  cases cs with
  | nil => cases begins
  | cons c behind =>
    have notEnd : (Text.isSpacing c || isBreak c || (c == ':' && endsKey flow behind) ||
        (flow && [',', '?', '[', ']', '{', '}'].contains c)) = false := by
      simp only [beginsUnquoted, Bool.or_eq_true, Bool.and_eq_true] at begins
      rcases begins with ⟨notBlank, notIndicator⟩ | ⟨notBlank, mark⟩
      · have differs (mark : Char) (isIndicator : mark ∈ indicators) : c ≠ mark := fun same =>
          absurd (same ▸ isIndicator) (by simpa using notIndicator)
        have noBlank : (Text.isSpacing c || isBreak c) = false := by simpa [atBlank] using notBlank
        simp only [noBlank, Bool.false_or]
        simp [differs ':' (by decide), differs ',' (by decide), differs '?' (by decide),
          differs '[' (by decide), differs ']' (by decide), differs '{' (by decide),
          differs '}' (by decide)]
      · have noKey : endsKey false behind = false := by simpa [endsKey] using notBlank
        rcases mark with hyphen | ⟨noFlow, mark⟩
        · obtain rfl : c = '-' := by simpa using hyphen
          simp [Text.isSpacing, isBreak]
        · obtain rfl : flow = false := by simpa using noFlow
          rcases mark with question | colon
          · obtain rfl : c = '?' := by simpa using question
            simp [Text.isSpacing, isBreak]
          · obtain rfl : c = ':' := by simpa using colon
            simp [noKey, Text.isSpacing, isBreak]
    rw [wordLength, notEnd]
    exact Nat.succ_pos _

/-- Where a scalar without quotes may begin, reading it takes a character at least. -/
theorem readUnquoted_shorter {flow : Bool} {indent : Int} (begins : beginsUnquoted flow cs = true) :
    (readUnquoted flow indent cs).rest.length < cs.length := by
  have positive := wordLength_pos begins
  have nonempty : 0 < cs.length := by
    cases cs with
    | nil => cases begins
    | cons c behind => exact Nat.succ_pos _
  have behindGap := (readGap_suffix (cs.drop (wordLength flow cs))).length_le
  have behindWord : (cs.drop (wordLength flow cs)).length < cs.length := by
    rw [List.length_drop]
    omega
  unfold readUnquoted
  rw [dif_pos ⟨positive, nonempty⟩]
  dsimp only
  split
  · exact Nat.lt_of_le_of_lt behindGap behindWord
  · split
    · exact Nat.lt_of_le_of_lt behindGap behindWord
    · have behindMore := (readUnquoted_suffix flow indent
        (readGap (cs.drop (wordLength flow cs))).rest).length_le
      exact Nat.lt_of_le_of_lt (Nat.le_trans behindMore behindGap) behindWord

/-! ## Block scalars -/

private theorem lineEnd_suffix (cs : List Char) : lineEnd cs <:+ cs :=
  List.dropWhile_suffix _

private theorem takeChomping_suffix (cs : List Char) : (takeChomping cs).2 <:+ cs := by
  unfold takeChomping
  split
  · exact List.suffix_cons _ _
  · exact List.suffix_cons _ _
  · exact List.suffix_rfl

private theorem takeIndentation_suffix (cs : List Char) : (takeIndentation cs).2 <:+ cs := by
  unfold takeIndentation
  split
  · split
    · exact List.suffix_cons _ _
    · exact List.suffix_rfl
  · exact List.suffix_rfl

private theorem takeLineEnd?_suffix (taken : takeLineEnd? cs = some rest) : rest <:+ cs := by
  have behindComment :
      (if (cs.dropWhile (· == ' ')).head? == some '#' then lineEnd (cs.dropWhile (· == ' '))
        else cs.dropWhile (· == ' ')) <:+ cs := by
    split
    · exact (lineEnd_suffix _).trans (List.dropWhile_suffix _)
    · exact List.dropWhile_suffix _
  obtain ⟨-, atEnd⟩ := Option.ite_none_left_eq_some.mp taken
  obtain ⟨-, same⟩ := Option.ite_none_right_eq_some.mp atEnd
  cases same
  exact (List.drop_suffix _ _).trans behindComment

theorem readBlockScalar?_suffix {fold : Bool} {outer : Int} {text : String}
    (read : readBlockScalar? fold outer cs = some (text, rest)) : rest <:+ cs := by
  have behindMarks := (takeIndentation_suffix _).trans (takeChomping_suffix cs)
  obtain ⟨header, isHeader⟩ : ∃ header,
      (if (takeChomping cs).1.isSome then (none, (takeIndentation (takeChomping cs).2).2)
        else takeChomping (takeIndentation (takeChomping cs).2).2) = header := ⟨_, rfl⟩
  have behindHeader : header.2 <:+ cs := by
    subst isHeader
    split
    · exact behindMarks
    · exact (takeChomping_suffix _).trans behindMarks
  simp only [readBlockScalar?, isHeader, Option.bind_eq_bind] at read
  obtain ⟨behind, taken, found⟩ := Option.bind_eq_some_iff.mp read
  obtain ⟨-, rfl⟩ := Prod.mk.inj (Option.some.inj found)
  exact (List.drop_suffix _ _).trans ((takeLineEnd?_suffix taken).trans behindHeader)

/-! ## Anchors, tags and directives -/

theorem readAnchor?_suffix {name : String} (read : readAnchor? cs = some (name, rest)) :
    rest <:+ cs := by
  obtain ⟨-, same⟩ := Option.ite_none_left_eq_some.mp read
  cases same
  exact List.dropWhile_suffix _

private theorem readTagText?_suffix {text : String} (read : readTagText? cs = some (text, rest)) :
    rest <:+ cs := by
  obtain ⟨written, -, found⟩ := Option.bind_eq_some_iff.mp read
  obtain ⟨-, same⟩ := Option.ite_none_left_eq_some.mp found
  cases same
  exact List.drop_suffix _ _

private theorem readHandle?_eq_some {handle : String}
    (read : readHandle? cs = some (handle, rest)) :
    ∃ behind, cs = '!' :: behind ∧ rest <:+ behind := by
  unfold readHandle? at read
  split at read
  · rename_i behind
    split at read
    · rename_i mark behindName
      cases read
      have behindMark := List.dropWhile_suffix (l := behind) isNameChar
      rw [behindName] at behindMark
      exact ⟨behind, rfl, (List.suffix_cons _ _).trans behindMark⟩
    · cases read
  · cases read

/-- A tag takes at least the exclamation mark at its beginning. -/
theorem readTag?_shorter {tag : WrittenTag} (read : readTag? cs = some (tag, rest)) :
    rest.length < cs.length := by
  unfold readTag? at read
  split at read
  · rename_i behind
    obtain ⟨⟨text, behindText⟩, taken, read⟩ := Option.bind_eq_some_iff.mp read
    have shorter := (readTagText?_suffix taken).length_le
    dsimp only at read shorter
    split at read
    · rename_i behindTag
      obtain ⟨-, same⟩ := Option.ite_none_right_eq_some.mp read
      cases same
      simp only [List.length_cons] at shorter ⊢
      omega
    · cases read
  · rename_i behind _
    refine Nat.lt_succ_of_le (List.IsSuffix.length_le ?_)
    have afterHandle {handle : String} {behindHandle : List Char}
        (read : ((readTagText? behindHandle).bind fun found =>
          if atGap found.2 then some ((⟨some handle, found.1⟩ : WrittenTag), found.2) else none) =
            some (tag, rest)) : rest <:+ behindHandle := by
      obtain ⟨⟨text, behindText⟩, taken, ended⟩ := Option.bind_eq_some_iff.mp read
      obtain ⟨-, same⟩ := Option.ite_none_right_eq_some.mp ended
      cases same
      exact readTagText?_suffix taken
    split at read
    · obtain ⟨-, same⟩ := Option.ite_none_right_eq_some.mp read
      cases same
      exact List.suffix_rfl
    · split at read
      · obtain ⟨⟨handle, behindHandle⟩, taken, read⟩ := Option.bind_eq_some_iff.mp read
        obtain ⟨_, same, suffix⟩ := readHandle?_eq_some taken
        cases same
        exact (afterHandle read).trans suffix
      · exact afterHandle read
  · cases read

private theorem readVersionNumber?_suffix {major : Nat}
    (read : readVersionNumber? cs = some (major, rest)) : rest <:+ cs := by
  obtain ⟨-, same⟩ := Option.ite_none_left_eq_some.mp read
  cases same
  exact List.drop_suffix _ _

private theorem readVersion?_suffix {directive : Directive}
    (read : readVersion? cs = some (directive, rest)) : rest <:+ cs := by
  obtain ⟨⟨major, behindMajor⟩, taken, read⟩ := Option.bind_eq_some_iff.mp read
  have suffix := (readVersionNumber?_suffix taken).trans (List.dropWhile_suffix _)
  dsimp only at read
  split at read
  · obtain ⟨⟨minor, behindMinor⟩, takenMinor, same⟩ := Option.bind_eq_some_iff.mp read
    cases same
    exact (readVersionNumber?_suffix takenMinor).trans ((List.suffix_cons _ _).trans suffix)
  · cases read

private theorem readMeaning?_suffix {handle : String} {directive : Directive}
    (read : readMeaning? handle cs = some (directive, rest)) : rest <:+ cs := by
  unfold readMeaning? at read
  split at read
  · obtain ⟨⟨text, behindText⟩, taken, same⟩ := Option.bind_eq_some_iff.mp read
    cases same
    exact (readTagText?_suffix taken).trans
      ((List.dropWhile_suffix _).trans (List.suffix_cons _ _))
  · cases read

private theorem readHandleMeaning?_suffix {directive : Directive}
    (read : readHandleMeaning? cs = some (directive, rest)) : rest <:+ cs := by
  unfold readHandleMeaning? at read
  have behindSpaces := List.dropWhile_suffix (l := cs) (· == ' ')
  split at read
  · rename_i spaced
    rw [spaced] at behindSpaces
    exact (readMeaning?_suffix read).trans ((List.suffix_cons _ _).trans behindSpaces)
  · obtain ⟨⟨handle, behindHandle⟩, taken, read⟩ := Option.bind_eq_some_iff.mp read
    obtain ⟨behind, begins, suffix⟩ := readHandle?_eq_some taken
    rw [begins] at behindSpaces
    exact (readMeaning?_suffix read).trans
      (suffix.trans ((List.suffix_cons _ _).trans behindSpaces))

private theorem lineEnd_of_bind {found directive : Directive} {behind : List Char}
    (ended : ((takeLineEnd? behind).bind fun rest => some (found, rest)) = some (directive, rest)) :
    rest <:+ behind := by
  obtain ⟨behindLine, taken, same⟩ := Option.bind_eq_some_iff.mp ended
  cases same
  exact takeLineEnd?_suffix taken

theorem readDirective?_suffix {directive : Directive}
    (read : readDirective? cs = some (directive, rest)) : rest <:+ cs := by
  unfold readDirective? at read
  obtain ⟨-, read⟩ := Option.ite_none_left_eq_some.mp read
  have behindName := List.dropWhile_suffix (l := cs) isNameChar
  split at read
  · obtain ⟨⟨found, behind⟩, taken, read⟩ := Option.bind_eq_some_iff.mp read
    exact (lineEnd_of_bind read).trans ((readVersion?_suffix taken).trans behindName)
  · obtain ⟨⟨found, behind⟩, taken, read⟩ := Option.bind_eq_some_iff.mp read
    exact (lineEnd_of_bind read).trans ((readHandleMeaning?_suffix taken).trans behindName)
  · exact (lineEnd_of_bind read).trans ((lineEnd_suffix _).trans behindName)

end Rulebook.Yaml
