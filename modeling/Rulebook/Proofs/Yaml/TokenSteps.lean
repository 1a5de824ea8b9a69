import Mathlib.Algebra.Ring.Int.Defs
import Rulebook.Proofs.Computation
import Rulebook.Proofs.Yaml.Cursor
import Rulebook.Proofs.Yaml.Scalars
import Rulebook.Yaml.Token.Scan

/-!
# Cutting off a token

Each token takes a character of the text at least. It keeps the balance between the tokens and the
indentation: there are as many collections in block style begun and not yet ended as the indentation
shows, and as many brackets and braces open as there are collections in flow style around the place.
-/

namespace Rulebook.Yaml

/-- By how much a token changes the number of open collections in block style. -/
def Token.blockDepth : Token → Int
  | .blockSequence | .blockMapping => 1
  | .blockEnd => -1
  | _ => 0

/-- By how much a token changes the number of open collections in flow style. -/
def Token.flowDepth : Token → Int
  | .openBracket | .openBrace => 1
  | .closeBracket | .closeBrace => -1
  | _ => 0

namespace Layout

/-- Whether indentations grow from the outermost to the innermost one. None is around all. -/
def Nested (indent : Int) : List Int → Prop
  | [] => indent = -1
  | next :: outer => next < indent ∧ Nested next outer

theorem Nested.neg_one_le {indent : Int} {outer : List Int} (nested : Nested indent outer) :
    -1 ≤ indent := by
  induction outer generalizing indent with
  | nil => exact Int.le_of_eq nested.symm
  | cons next outer inductionHypothesis =>
    have := inductionHypothesis nested.2
    have := nested.1
    omega

/-- Outside all collections there is no indentation left. -/
theorem Nested.eq_nil {indent : Int} {outer : List Int} (nested : Nested indent outer)
    (ended : indent ≤ -1) : outer = [] := by
  cases outer with
  | nil => rfl
  | cons next outer =>
    have := nested.2.neg_one_le
    have := nested.1
    omega

/-- A node that may be a key begins in the text that was read, behind tokens that there are. -/
structure Fits (cs : List Char) (layout : Layout) (candidate : KeyCandidate) : Prop where
  start : candidate.start.Within cs
  offset_le : candidate.start.offset ≤ layout.cursor.offset
  index_le : candidate.index ≤ layout.tokens.length

/-- What holds between tokens. -/
structure Sound (cs : List Char) (layout : Layout) : Prop where
  cursor : layout.cursor.Within cs
  candidates : ∀ candidate? ∈ layout.candidate? :: layout.enclosing, ∀ candidate ∈ candidate?,
    layout.Fits cs candidate
  blocks : (layout.tokens.map Token.blockDepth).sum = layout.outer.length
  flows : (layout.tokens.map Token.flowDepth).sum = layout.enclosing.length
  indents : Nested layout.indent layout.outer

variable {cs rest : List Char} {layout next : Layout} {token : Token}

theorem sound_start (cs : List Char) : (start cs).Sound cs :=
  ⟨Cursor.within_start cs, by simp [start], rfl, rfl, rfl⟩

/-- A step that stays in its place and keeps what holds between tokens. -/
structure Keeps (cs : List Char) (layout next : Layout) : Prop where
  cursor : next.cursor = layout.cursor
  sound : layout.Sound cs → next.Sound cs

/-- A step that moves on in the text and keeps what holds between tokens. -/
structure Advances (cs : List Char) (layout next : Layout) : Prop where
  shorter : next.cursor.rest.length < layout.cursor.rest.length
  sound : layout.Sound cs → next.Sound cs

theorem Keeps.trans {middle : Layout} (first : layout.Keeps cs middle)
    (second : middle.Keeps cs next) : layout.Keeps cs next :=
  ⟨second.cursor.trans first.cursor, second.sound ∘ first.sound⟩

theorem Keeps.advances {middle : Layout} (first : layout.Keeps cs middle)
    (second : middle.Advances cs next) : layout.Advances cs next :=
  ⟨first.cursor ▸ second.shorter, second.sound ∘ first.sound⟩

theorem Advances.keeps {middle : Layout} (first : layout.Advances cs middle)
    (second : middle.Keeps cs next) : layout.Advances cs next :=
  ⟨second.cursor ▸ first.shorter, second.sound ∘ first.sound⟩

/-! ## Parts of a step -/

/-- The number of collections in block style that tokens leave open, beyond those of the
indentation. -/
def blockExcess (layout : Layout) : Int :=
  (layout.tokens.map Token.blockDepth).sum - layout.outer.length

/-- The number of collections in flow style that tokens leave open, beyond those around the
place. -/
def flowExcess (layout : Layout) : Int :=
  (layout.tokens.map Token.flowDepth).sum - layout.enclosing.length

/-- A step that adds tokens and no node that may be a key keeps what holds between tokens, if it
keeps the balance. -/
theorem keeps_of_balance (cursor : next.cursor = layout.cursor)
    (longer : layout.tokens.length ≤ next.tokens.length)
    (candidates : ∀ candidate? ∈ next.candidate? :: next.enclosing,
      candidate? = none ∨ candidate? ∈ layout.candidate? :: layout.enclosing)
    (blocks : next.blockExcess = layout.blockExcess) (flows : next.flowExcess = layout.flowExcess)
    (indents : Nested layout.indent layout.outer → Nested next.indent next.outer) :
    layout.Keeps cs next := by
  refine ⟨cursor, fun sound => ⟨cursor ▸ sound.cursor, ?_, ?_, ?_, indents sound.indents⟩⟩
  · intro candidate? member candidate found
    rcases candidates candidate? member with none | known
    · cases none.symm.trans found
    · obtain ⟨start, offset_le, index_le⟩ := sound.candidates candidate? known candidate found
      exact ⟨start, cursor ▸ offset_le, Nat.le_trans index_le longer⟩
  · have balance := sound.blocks
    unfold blockExcess at blocks
    omega
  · have balance := sound.flows
    unfold flowExcess at flows
    omega

theorem keeps_push (flat : token.blockDepth = 0) (flatFlow : token.flowDepth = 0) :
    layout.Keeps cs (layout.push token) :=
  keeps_of_balance rfl (Nat.le_succ _) (fun _ member => .inr member)
    (by simp [blockExcess, push, flat]) (by simp [flowExcess, push, flatFlow]) id

theorem keeps_allowKey (allowed : Bool) : layout.Keeps cs (layout.allowKey allowed) :=
  keeps_of_balance rfl (Nat.le_refl _) (fun _ member => .inr member) rfl rfl id

theorem keeps_dropKey (dropped : layout.dropKey = .ok next) : layout.Keeps cs next := by
  obtain ⟨_, -, same⟩ := bind_eq_ok_iff.mp dropped
  cases same
  refine keeps_of_balance rfl (Nat.le_refl _) (fun candidate? member => ?_) rfl rfl id
  rcases List.mem_cons.mp member with rfl | enclosing
  · exact .inl rfl
  · exact .inr (.tail _ enclosing)

/-- A node that begins here may be a key. -/
private theorem keeps_note (required : Bool) :
    layout.Keeps cs { layout with
      candidate? := some ⟨layout.tokens.length, required, layout.cursor⟩ } := by
  refine ⟨rfl, fun sound => ⟨sound.cursor, ?_, sound.blocks, sound.flows, sound.indents⟩⟩
  intro candidate? member candidate found
  rcases List.mem_cons.mp member with rfl | enclosing
  · cases found
    exact ⟨sound.cursor, Nat.le_refl _, Nat.le_refl _⟩
  · obtain ⟨start, offset_le, index_le⟩ :=
      sound.candidates candidate? (.tail _ enclosing) candidate found
    exact ⟨start, offset_le, index_le⟩

private theorem isFlow_of_dropKey (dropped : layout.dropKey = .ok next) :
    next.isFlow = layout.isFlow := by
  obtain ⟨_, -, same⟩ := bind_eq_ok_iff.mp dropped
  cases same
  rfl

private theorem isFlow_of_noteKey (noted : layout.noteKey = .ok next) :
    next.isFlow = layout.isFlow := by
  unfold noteKey at noted
  split at noted
  · obtain ⟨middle, dropped, same⟩ := bind_eq_ok_iff.mp noted
    cases same
    show middle.isFlow = layout.isFlow
    exact isFlow_of_dropKey dropped
  · cases noted
    rfl

theorem keeps_noteKey (noted : layout.noteKey = .ok next) : layout.Keeps cs next := by
  unfold noteKey at noted
  split at noted
  · obtain ⟨middle, dropped, same⟩ := bind_eq_ok_iff.mp noted
    cases same
    exact (keeps_dropKey dropped).trans (keeps_note _)
  · cases noted
    exact ⟨rfl, id⟩

private theorem sum_insert (depth : Token → Int) (index : Nat) (token : Token) :
    ((layout.insert index token).tokens.map depth).sum =
      (layout.tokens.map depth).sum + depth token := by
  have whole := congrArg (fun tokens => (List.map depth tokens).sum)
    (List.take_append_drop (layout.tokens.length - index) layout.tokens)
  simp only [List.map_append, List.sum_append] at whole
  simp only [insert, List.map_append, List.map_cons, List.sum_append, List.sum_cons]
  omega

private theorem length_insert (index : Nat) (token : Token) :
    (layout.insert index token).tokens.length = layout.tokens.length + 1 := by
  simp only [insert, List.length_append, List.length_cons, List.length_take, List.length_drop]
  omega

theorem keeps_insert (index : Nat) (flat : token.blockDepth = 0) (flatFlow : token.flowDepth = 0) :
    layout.Keeps cs (layout.insert index token) :=
  keeps_of_balance rfl (by rw [length_insert]; exact Nat.le_succ _) (fun _ member => .inr member)
    (by rw [blockExcess, sum_insert, flat, Int.add_zero]; rfl)
    (by rw [flowExcess, sum_insert, flatFlow, Int.add_zero]; rfl) id

/-- A collection in block style that begins is one more in the indentation. -/
theorem keeps_indentTo (column index : Nat) (begins : token.blockDepth = 1)
    (flat : token.flowDepth = 0) : layout.Keeps cs (layout.indentTo column index token) := by
  unfold indentTo
  split
  · rename_i further
    simp only [Bool.and_eq_true, decide_eq_true_eq] at further
    refine keeps_of_balance rfl (by simp only [length_insert]; exact Nat.le_succ _)
      (fun _ member => .inr member) ?_ ?_ fun nested => ⟨further.2, nested⟩
    · have outer : (layout.insert index token).outer = layout.outer := rfl
      simp only [blockExcess, sum_insert, begins, outer, List.length_cons]
      omega
    · simp only [flowExcess, sum_insert, flat, Int.add_zero]
      rfl
  · exact ⟨rfl, id⟩

theorem keeps_beginBlock (begins : token.blockDepth = 1) (flat : token.flowDepth = 0)
    (begun : layout.beginBlock token = .ok next) : layout.Keeps cs next := by
  unfold beginBlock at begun
  split at begun
  · cases begun
    exact ⟨rfl, id⟩
  · split at begun
    · cases begun
      exact keeps_indentTo _ _ begins flat
    · cases begun

/-- Ending collections keeps the balance, and leaves only those that are not indented further. -/
theorem unwind_eq {column indent lastIndent : Int} {tokens lastTokens : List Token}
    {outer lastOuter : List Int}
    (ended : unwind column indent tokens outer = (lastIndent, lastTokens, lastOuter)) :
    (Nested indent outer → Nested lastIndent lastOuter) ∧
      (lastIndent ≤ column ∨ lastOuter = []) ∧ tokens.length ≤ lastTokens.length ∧
      (lastTokens.map Token.blockDepth).sum - lastOuter.length =
        (tokens.map Token.blockDepth).sum - outer.length ∧
      (lastTokens.map Token.flowDepth).sum = (tokens.map Token.flowDepth).sum := by
  induction outer generalizing indent tokens with
  | nil =>
    cases ended
    exact ⟨id, .inr rfl, Nat.le_refl _, rfl, rfl⟩
  | cons outerIndent outer inductionHypothesis =>
    unfold unwind at ended
    split at ended
    · obtain ⟨nested, stops, longer, blocks, flows⟩ := inductionHypothesis ended
      refine ⟨fun whole => nested whole.2, stops, Nat.le_of_succ_le longer, blocks.trans ?_,
        flows.trans ?_⟩
      · simp only [List.map_cons, List.sum_cons, Token.blockDepth, List.length_cons]
        omega
      · simp [Token.flowDepth]
    · rename_i notFurther
      cases ended
      exact ⟨id, .inl (Int.not_lt.mp notFurther), Nat.le_refl _, rfl, rfl⟩

theorem keeps_unwindTo (column : Int) : layout.Keeps cs (layout.unwindTo column) := by
  unfold unwindTo
  split
  · exact ⟨rfl, id⟩
  · obtain ⟨indent, tokens, outer, ended⟩ : ∃ indent tokens outer,
        unwind column layout.indent layout.tokens layout.outer = (indent, tokens, outer) :=
      ⟨_, _, _, rfl⟩
    obtain ⟨nested, -, longer, blocks, flows⟩ := unwind_eq ended
    rw [ended]
    exact keeps_of_balance rfl longer (fun _ member => .inr member) blocks
      (congrArg (· - (layout.enclosing.length : Int)) flows) nested

private theorem mapM_keeps {keep : Option KeyCandidate → Except Fault (Option KeyCandidate)}
    (keeps : ∀ candidate? kept, keep candidate? = .ok kept → kept = none ∨ kept = candidate?)
    {candidates kept : List (Option KeyCandidate)} (computed : candidates.mapM keep = .ok kept) :
    kept.length = candidates.length ∧
      ∀ candidate? ∈ kept, candidate? = none ∨ candidate? ∈ candidates := by
  induction candidates generalizing kept with
  | nil =>
    cases computed
    exact ⟨rfl, by simp⟩
  | cons candidate? candidates inductionHypothesis =>
    rw [List.mapM_cons] at computed
    obtain ⟨first, keptFirst, computed⟩ := bind_eq_ok_iff.mp computed
    obtain ⟨others, keptOthers, same⟩ := bind_eq_ok_iff.mp computed
    cases same
    obtain ⟨lengths, known⟩ := inductionHypothesis keptOthers
    refine ⟨by simp [lengths], fun found member => ?_⟩
    rcases List.mem_cons.mp member with rfl | other
    · exact (keeps _ _ keptFirst).imp_right fun same => List.mem_cons.mpr (.inl same)
    · exact (known found other).imp_right (.tail _)

private theorem keepFresh_cases {candidate? kept : Option KeyCandidate}
    (computed : layout.keepFresh candidate? = .ok kept) : kept = none ∨ kept = candidate? := by
  unfold keepFresh at computed
  split at computed
  · split at computed
    · obtain ⟨_, -, same⟩ := exists_of_map_eq_ok computed
      exact .inl same.symm
    · cases computed
      exact .inr rfl
  · cases computed
    exact .inl rfl

theorem keeps_dropStale (dropped : layout.dropStale = .ok next) : layout.Keeps cs next := by
  obtain ⟨candidate?, keptCandidate, dropped⟩ := bind_eq_ok_iff.mp dropped
  obtain ⟨enclosing, keptEnclosing, same⟩ := bind_eq_ok_iff.mp dropped
  cases same
  obtain ⟨lengths, known⟩ := mapM_keeps (fun _ _ => keepFresh_cases) keptEnclosing
  refine keeps_of_balance rfl (Nat.le_refl _) (fun found member => ?_) rfl
    (by simp only [flowExcess, lengths]) id
  rcases List.mem_cons.mp member with rfl | other
  · exact (keepFresh_cases keptCandidate).imp_right fun same => List.mem_cons.mpr (.inl same)
  · exact (known found other).imp_right (.tail _)

/-- At the end of the text collections are ended in balance. -/
theorem keeps_closeAll (closed : layout.closeAll = .ok next) : layout.Keeps cs next := by
  obtain ⟨middle, dropped, same⟩ := bind_eq_ok_iff.mp closed
  cases same
  exact (keeps_unwindTo (-1)).trans ((keeps_dropKey dropped).trans (keeps_allowKey false))

/-- Further on in the text, what holds between tokens still holds. -/
theorem Sound.move {cursor : Cursor} (sound : layout.Sound cs) (within : cursor.Within cs)
    (offset_le : layout.cursor.offset ≤ cursor.offset) :
    { layout with cursor := cursor }.Sound cs := by
  refine ⟨within, ?_, sound.blocks, sound.flows, sound.indents⟩
  intro candidate? member candidate found
  obtain ⟨start, start_le, index_le⟩ := sound.candidates candidate? member candidate found
  exact ⟨start, Nat.le_trans start_le offset_le, index_le⟩

theorem Keeps.advances_skip {middle : Layout} {count : Nat} (keeps : layout.Keeps cs middle)
    (more : layout.cursor.rest ≠ []) (positive : 0 < count) :
    layout.Advances cs (middle.skip count) := by
  have nonempty := List.length_pos_iff.mpr more
  refine ⟨?_, fun sound => (keeps.sound sound).move ((keeps.sound sound).cursor.skip count)
    (Cursor.offset_le_skip _ _)⟩
  show (middle.cursor.skip count).rest.length < layout.cursor.rest.length
  rw [Cursor.rest_skip, List.length_drop, keeps.cursor]
  omega

theorem Keeps.advances_upTo {middle : Layout} (keeps : layout.Keeps cs middle)
    (shorter : rest.length < layout.cursor.rest.length) :
    layout.Advances cs (middle.upTo rest) := by
  refine ⟨?_, fun sound => (keeps.sound sound).move ((keeps.sound sound).cursor.upTo rest)
    (Cursor.offset_le_skip _ _)⟩
  show (middle.cursor.upTo rest).rest.length < layout.cursor.rest.length
  rw [Cursor.upTo, Cursor.rest_skip, List.length_drop, keeps.cursor]
  omega

/-! ## Steps -/

section Steps

variable (more : layout.cursor.rest ≠ [])

private theorem length_drop_lt {cs rest : List Char} {count : Nat} (more : cs ≠ [])
    (positive : 0 < count) (suffix : rest <:+ cs.drop count) : rest.length < cs.length := by
  have nonempty := List.length_pos_iff.mpr more
  have le := suffix.length_le
  rw [List.length_drop] at le
  omega

theorem advances_property {α : Type} {read? : List Char → Option (α × List Char)}
    {token : α → Token} {mark : Nat}
    (shorter : ∀ {found rest}, read? (layout.cursor.rest.drop mark) = some (found, rest) →
      rest.length < layout.cursor.rest.length)
    (flat : ∀ found, (token found).blockDepth = 0 ∧ (token found).flowDepth = 0)
    (read : layout.property read? token mark = .ok next) : layout.Advances cs next := by
  obtain ⟨middle, noted, read⟩ := bind_eq_ok_iff.mp read
  have keeps : layout.Keeps cs middle := keeps_noteKey noted
  rw [keeps.cursor] at read
  split at read
  · rename_i found rest taken
    cases read
    have pushed := keeps.trans (keeps_push (flat found).1 (flat found).2)
    exact (pushed.advances_upTo (shorter taken)).keeps (keeps_allowKey false)
  · cases read

include more

theorem advances_quoted
    {read : Quoting → List Char → Except Fault (Text.HalfText × List Char)}
    (suffix : ∀ {quoting behind text rest},
      read quoting behind = .ok (text, rest) → rest <:+ behind)
    (cut : layout.quoted read = .ok next) : layout.Advances cs next := by
  obtain ⟨middle, noted, cut⟩ := bind_eq_ok_iff.mp cut
  have keeps : layout.Keeps cs middle := keeps_noteKey noted
  obtain ⟨⟨half, rest⟩, taken, same⟩ := bind_eq_ok_iff.mp cut
  rw [keeps.cursor] at taken
  cases same
  have shorter := length_drop_lt more Nat.one_pos (suffix taken)
  refine (Keeps.advances_upTo (keeps.trans ?_) shorter).keeps (keeps_allowKey false)
  split <;> exact keeps_push rfl rfl

theorem advances_blockScalar {fold : Bool} (cut : layout.blockScalar fold = .ok next) :
    layout.Advances cs next := by
  obtain ⟨middle, dropped, cut⟩ := bind_eq_ok_iff.mp cut
  have keeps : layout.Keeps cs middle := (keeps_allowKey true).trans (keeps_dropKey dropped)
  rw [keeps.cursor] at cut
  split at cut
  · rename_i text rest taken
    cases cut
    have shorter := length_drop_lt more Nat.one_pos (readBlockScalar?_suffix taken)
    exact (keeps.trans (keeps_push rfl rfl)).advances_upTo shorter
  · cases cut

omit more in
theorem advances_unquoted (begins : beginsUnquoted layout.isFlow layout.cursor.rest = true)
    (cut : layout.unquoted = .ok next) : layout.Advances cs next := by
  obtain ⟨middle, noted, same⟩ := bind_eq_ok_iff.mp cut
  have keeps : layout.Keeps cs middle := keeps_noteKey noted
  cases same
  have flow : middle.isFlow = layout.isFlow := isFlow_of_noteKey noted
  refine (Keeps.advances_upTo (keeps.trans (keeps_push rfl rfl)) ?_).keeps (keeps_allowKey _)
  rw [keeps.cursor, flow]
  exact readUnquoted_shorter begins

/-- An opening bracket or brace puts the node that may be a key aside. -/
theorem advances_opening (flat : token.blockDepth = 0) (opens : token.flowDepth = 1)
    (cut : layout.opening token = .ok next) : layout.Advances cs next := by
  obtain ⟨middle, noted, same⟩ := bind_eq_ok_iff.mp cut
  have keeps : layout.Keeps cs middle := keeps_noteKey noted
  cases same
  refine (Keeps.advances_skip (keeps.trans ?_) more Nat.one_pos).keeps (keeps_allowKey true)
  refine keeps_of_balance rfl (Nat.le_succ _) (fun candidate? member => ?_)
    (by simp [blockExcess, push, flat]) (by simp [flowExcess, push, opens]; omega) id
  rcases List.mem_cons.mp member with rfl | around
  · exact .inl rfl
  · exact .inr around

/-- A closing bracket or brace takes up the node that was put aside. -/
theorem advances_closing (flat : token.blockDepth = 0) (closes : token.flowDepth = -1)
    (cut : layout.closing token = .ok next) : layout.Advances cs next := by
  obtain ⟨middle, dropped, cut⟩ := bind_eq_ok_iff.mp cut
  have keeps : layout.Keeps cs middle := keeps_dropKey dropped
  split at cut
  · rename_i candidate? enclosing around
    cases cut
    refine (Keeps.advances_skip (keeps.trans ?_) more Nat.one_pos).keeps (keeps_allowKey false)
    exact keeps_of_balance rfl (Nat.le_succ _) (fun _ member => .inr (.tail _ (around ▸ member)))
      (by simp [blockExcess, push, flat]) (by simp [flowExcess, push, closes, around]; omega) id
  · cases cut

theorem advances_comma (cut : layout.comma = .ok next) : layout.Advances cs next := by
  obtain ⟨middle, dropped, same⟩ := bind_eq_ok_iff.mp cut
  cases same
  exact (((keeps_dropKey dropped).trans (keeps_push rfl rfl)).advances_skip more
    Nat.one_pos).keeps (keeps_allowKey true)

theorem advances_entry (cut : layout.entry = .ok next) : layout.Advances cs next := by
  obtain ⟨begun, begins, cut⟩ := bind_eq_ok_iff.mp cut
  obtain ⟨middle, dropped, same⟩ := bind_eq_ok_iff.mp cut
  cases same
  have keeps : layout.Keeps cs middle :=
    (keeps_beginBlock rfl rfl begins).trans (keeps_dropKey dropped)
  exact ((keeps.trans (keeps_push rfl rfl)).advances_skip more Nat.one_pos).keeps
    (keeps_allowKey true)

theorem advances_key (cut : layout.key = .ok next) : layout.Advances cs next := by
  obtain ⟨begun, begins, cut⟩ := bind_eq_ok_iff.mp cut
  obtain ⟨middle, dropped, same⟩ := bind_eq_ok_iff.mp cut
  cases same
  have keeps : layout.Keeps cs middle :=
    (keeps_beginBlock rfl rfl begins).trans (keeps_dropKey dropped)
  exact ((keeps.trans (keeps_push rfl rfl)).advances_skip more Nat.one_pos).keeps
    (keeps_allowKey _)

/-- The colon puts the token for a key in front of the node that is one, and begins a mapping there
if none goes on. -/
theorem advances_value (cut : layout.value = .ok next) : layout.Advances cs next := by
  unfold value at cut
  split at cut
  · rename_i candidate _
    cases cut
    have dropped : layout.Keeps cs { layout with candidate? := none } :=
      keeps_of_balance rfl (Nat.le_refl _)
        (fun _ member => (List.mem_cons.mp member).imp_right (.tail _)) rfl rfl id
    have keyed : layout.Keeps cs ({ layout with candidate? := none }.insert candidate.index .key) :=
      dropped.trans (keeps_insert candidate.index rfl rfl)
    have begun : layout.Keeps cs
        (({ layout with candidate? := none }.insert candidate.index .key).indentTo
          candidate.start.column candidate.index .blockMapping) :=
      keyed.trans (keeps_indentTo candidate.start.column candidate.index rfl rfl)
    exact ((begun.trans (keeps_push rfl rfl)).advances_skip more Nat.one_pos).keeps
      (keeps_allowKey false)
  · obtain ⟨begun, begins, same⟩ := bind_eq_ok_iff.mp cut
    cases same
    exact (((keeps_beginBlock rfl rfl begins).trans (keeps_push rfl rfl)).advances_skip more
      Nat.one_pos).keeps (keeps_allowKey _)

end Steps

/-- A mark between documents ends all collections in block style. -/
private theorem advances_mark {token : Token} (more : layout.cursor.rest ≠ [])
    (flat : token.blockDepth = 0) (flatFlow : token.flowDepth = 0)
    (cut : (do .ok (((← layout.closeAll).push token).skip 3)) = Except.ok (ε := Fault) next) :
    layout.Advances cs next := by
  obtain ⟨closed, isClosed, same⟩ := bind_eq_ok_iff.mp cut
  cases same
  exact ((keeps_closeAll isClosed).trans (keeps_push flat flatFlow)).advances_skip more (by decide)

private theorem advances_directive (more : layout.cursor.rest ≠ [])
    (cut : (do (← layout.closeAll).property readDirective? .directive 1) = .ok next) :
    layout.Advances cs next := by
  obtain ⟨closed, isClosed, cut⟩ := bind_eq_ok_iff.mp cut
  have keeps : layout.Keeps cs closed := keeps_closeAll isClosed
  rw [← keeps.cursor] at more
  exact keeps.advances (advances_property
    (fun read => length_drop_lt more Nat.one_pos (readDirective?_suffix read))
    (fun _ => ⟨rfl, rfl⟩) cut)

/-- Of two ways to go on, each moves on if it is taken. -/
private theorem advances_ite {condition : Prop} [Decidable condition]
    {first others : Except Fault Layout} (cut : (if condition then first else others) = .ok next)
    (taken : condition → first = .ok next → layout.Advances cs next)
    (otherwise : others = .ok next → layout.Advances cs next) : layout.Advances cs next := by
  split at cut
  · exact taken ‹_› cut
  · exact otherwise cut

/-- Each token takes a character of the text at least. -/
theorem advances_next (cut : layout.next = .ok next) : layout.Advances cs next := by
  unfold Layout.next at cut
  dsimp only at cut
  split at cut
  · cases cut
  rename_i c begins
  have more : layout.cursor.rest ≠ [] := by
    intro empty
    rw [empty] at begins
    cases begins
  have anchor {found : String} {rest : List Char}
      (read : readAnchor? (layout.cursor.rest.drop 1) = some (found, rest)) :=
    length_drop_lt more Nat.one_pos (readAnchor?_suffix read)
  refine advances_ite cut (fun _ => advances_directive more) fun cut => ?_
  refine advances_ite cut (fun _ => advances_mark more rfl rfl) fun cut => ?_
  refine advances_ite cut (fun _ => advances_mark more rfl rfl) fun cut => ?_
  refine advances_ite cut (fun _ => advances_opening more rfl rfl) fun cut => ?_
  refine advances_ite cut (fun _ => advances_opening more rfl rfl) fun cut => ?_
  refine advances_ite cut (fun _ => advances_closing more rfl rfl) fun cut => ?_
  refine advances_ite cut (fun _ => advances_closing more rfl rfl) fun cut => ?_
  refine advances_ite cut (fun _ => advances_comma more) fun cut => ?_
  refine advances_ite cut (fun _ => advances_entry more) fun cut => ?_
  refine advances_ite cut (fun _ => advances_key more) fun cut => ?_
  refine advances_ite cut (fun _ => advances_value more) fun cut => ?_
  refine advances_ite cut (fun _ => advances_property anchor fun _ => ⟨rfl, rfl⟩) fun cut => ?_
  refine advances_ite cut (fun _ => advances_property anchor fun _ => ⟨rfl, rfl⟩) fun cut => ?_
  refine advances_ite cut
    (fun _ => advances_property readTag?_shorter fun _ => ⟨rfl, rfl⟩) fun cut => ?_
  refine advances_ite cut (fun _ => advances_blockScalar more) fun cut => ?_
  refine advances_ite cut (fun _ => advances_blockScalar more) fun cut => ?_
  refine advances_ite cut (fun _ => advances_quoted more readSingle_suffix) fun cut => ?_
  refine advances_ite cut (fun _ => advances_quoted more readDouble_suffix) fun cut => ?_
  exact advances_ite cut advances_unquoted fun refused => nomatch refused

end Layout

end Rulebook.Yaml
