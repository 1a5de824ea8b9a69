import Rulebook.Proofs.Grammar.Documents
import Rulebook.Proofs.Grammar.Progress
import Rulebook.Proofs.Token.Recovery

/-!
# Places of faults

Places of the faults of a document. The fault of a block is at one of its tokens, and so in front of
the next block, except where the block is the beginning of a rule that is cut short: every such
fault is at the end of the text, however many blocks stand between. Faults that are not there stand
in the order of their blocks.
-/

namespace Rulebook

open Text (Position)

namespace Grammar

/-- Whether tokens are the beginning of a rule but no rule. -/
def IsCutShort (block : List Token) : Prop :=
  BeginsRule (lexemes block) ∧ ∀ rule, ¬ DerivesRule (lexemes block) rule

theorem FaultAmong.place_mem {finish : Position} {before rest : List Token} {fault : Fault}
    (among : FaultAmong finish before rest fault) (goesOn : rest ≠ []) :
    ∃ token ∈ before ++ rest, fault.place = token.place := by
  obtain ⟨passed, more, rfl, place⟩ := among
  have someTokens : more ++ rest ≠ [] := List.append_ne_nil_of_right_ne_nil more goesOn
  obtain ⟨token, others, split⟩ := List.exists_cons_of_ne_nil someTokens
  refine ⟨token, ?_, ?_⟩
  · rw [List.append_assoc, split]
    simp
  · rw [place, split]
    rfl

private theorem place_of_wholeRule {finish : Position} {block : List Token} {fault : Fault}
    (failed : wholeRule finish block = .error fault) :
    IsCutShort block ∧ fault.place = finish ∨
      ¬ IsCutShort block ∧ ∃ token ∈ block, fault.place = token.place := by
  obtain ⟨before, rest, rfl, blames, stops, -⟩ := blames_of_wholeRule failed
  have noRule (rule : Rule) : ¬ DerivesRule (lexemes (before ++ rest)) rule := by
    intro derivation
    rw [wholeRule_of_derives finish derivation rfl] at failed
    cases failed
  by_cases atEnd : rest = []
  · subst atEnd
    have begins : BeginsRule (lexemes (before ++ [])) := by
      rw [List.append_nil]
      exact blames.begins
    refine .inl ⟨⟨begins, noRule⟩, blames.place_eq fun cause => ?_⟩
    obtain ⟨isAssign, -⟩ := blames.assignsToNoPath cause
    cases isAssign
  · refine .inr ⟨fun cutShort => atEnd ?_, blames.faultAmong.place_mem atEnd⟩
    have stopsHere : StopsRule DerivesRule before (rest ++ []) := by
      rw [List.append_nil]
      exact stops
    exact stopsHere.nil_of_begins cutShort.1

end Grammar

namespace Document

open Grammar (IsCutShort here lexemes)

variable {finish : Position} {tokens block : List Token} {found others : List (List Token)}
  {fault : Grammar.Fault}

/-! ## Blocks -/

private theorem exists_malformed_of_lexicalFault? (isFault : lexicalFault? block = some fault) :
    ∃ token ∈ block, fault.place = token.place ∧ ∃ cause, token.lexeme = .malformed cause := by
  obtain ⟨token, member, found⟩ := List.exists_of_findSome?_eq_some isFault
  refine ⟨token, member, ?_⟩
  split at found
  · next cause isMalformed =>
      cases found
      exact ⟨rfl, cause, isMalformed⟩
  · cases found

private theorem ne_nil_of_mem_blocks (member : block ∈ blocks tokens) : block ≠ [] := by
  have beginsOnce : BeginsOnce [] := List.forall_mem_nil _
  exact (beginsOnce_of_mem_splitFrom beginsOnce block member).1

/-- A fault is at the end of the text if its block is cut short, and otherwise at a token of the
block. -/
theorem place_of_readBlock (failed : readBlock finish block = .error fault) :
    IsCutShort block ∧ fault.place = finish ∨
      ¬ IsCutShort block ∧ ∃ token ∈ block, fault.place = token.place := by
  rw [readBlock] at failed
  split at failed
  · next lexical isFault =>
      cases failed
      obtain ⟨token, member, place, cause, isMalformed⟩ := exists_malformed_of_lexicalFault? isFault
      refine .inr ⟨?_, token, member, place⟩
      rintro ⟨⟨completion, rule, derivation⟩, -⟩
      have spelled : .malformed cause ∈ lexemes block := isMalformed ▸ List.mem_map_of_mem member
      exact derivation.isEnclosed.malformed_notMem cause (List.mem_append_left completion spelled)
  · exact Grammar.place_of_wholeRule failed

/-- The faults of a document are those of its blocks, in their order. -/
theorem faults_ofBlocks (finish : Position) (found : List (List Token)) :
    (ofBlocks finish found).faults =
      found.filterMap fun block => fault? (readBlock finish block) := by
  induction found with
  | nil => rfl
  | cons block others inductionHypothesis =>
      cases read : readBlock finish block with
      | ok rule =>
          rw [ofBlocks_ok read, inductionHypothesis, List.filterMap_cons_none]
          rw [read]
          rfl
      | error fault =>
          rw [ofBlocks_error read, inductionHypothesis, List.filterMap_cons_some]
          rw [read]
          rfl

/-! ## The order of places -/

/-- Whether each token is behind the one before it, and the end of the text behind them all. -/
def InOrder (finish : Position) (tokens : List Token) : Prop :=
  tokens.Pairwise (fun token later => token.place.offset < later.place.offset) ∧
    ∀ token ∈ tokens, token.place.offset < finish.offset

private theorem inOrder_lenient (text : String) :
    InOrder (Scan.lenient text).finish (Scan.lenient text).tokens := by
  obtain ⟨tokensInOrder, -, beforeFinish⟩ :=
    List.pairwise_append.1 (Scan.pairwise_offsets .start text.toList)
  refine ⟨List.pairwise_map.1 tokensInOrder, fun token member => ?_⟩
  exact beforeFinish _ (List.mem_map_of_mem member) _ (List.mem_singleton_self _)

namespace InOrder

theorem append {first rest : List Token} (inOrder : InOrder finish (first ++ rest)) :
    InOrder finish first ∧ InOrder finish rest := by
  obtain ⟨both, beforeFinish⟩ := inOrder
  obtain ⟨firstInOrder, restInOrder, -⟩ := List.pairwise_append.1 both
  exact ⟨⟨firstInOrder, fun token member => beforeFinish token (List.mem_append_left rest member)⟩,
    ⟨restInOrder, fun token member => beforeFinish token (List.mem_append_right first member)⟩⟩

private theorem here_le_finish (inOrder : InOrder finish tokens) :
    (here finish tokens).offset ≤ finish.offset := by
  cases tokens with
  | nil => exact Nat.le_refl _
  | cons token others => exact Nat.le_of_lt (inOrder.2 token List.mem_cons_self)

private theorem here_le {token : Token} (inOrder : InOrder finish tokens) (member : token ∈ tokens) :
    (here finish tokens).offset ≤ token.place.offset := by
  cases tokens with
  | nil => cases member
  | cons first others =>
      rcases List.mem_cons.1 member with rfl | later
      · exact Nat.le_refl _
      · exact Nat.le_of_lt ((List.pairwise_cons.1 inOrder.1).1 token later)

private theorem lt_here {first rest : List Token} {token : Token}
    (inOrder : InOrder finish (first ++ rest)) (member : token ∈ first) :
    token.place.offset < (here finish rest).offset := by
  cases rest with
  | nil => exact inOrder.2 token (List.mem_append_left [] member)
  | cons next others =>
      exact (List.pairwise_append.1 inOrder.1).2.2 token member next List.mem_cons_self

end InOrder

/-! ## Faults and the blocks around them -/

/-- Where a fault is, given its block and the blocks behind it. -/
structure IsPlaced (finish : Position) (block : List Token) (others : List (List Token))
    (fault : Grammar.Fault) : Prop where
  notBefore : (here finish block).offset ≤ fault.place.offset
  atFinish : IsCutShort block → fault.place = finish
  inBlock : ¬ IsCutShort block → ∃ token ∈ block, fault.place = token.place
  notBehind_iff : fault.place.offset ≤ (here finish others.flatten).offset ↔
    ¬ IsCutShort block ∨ others = []

private theorem isPlaced (inOrder : InOrder finish (block ++ others.flatten))
    (nonempty : ∀ other ∈ others, other ≠ []) (failed : readBlock finish block = .error fault) :
    IsPlaced finish block others fault := by
  obtain ⟨blockInOrder, othersInOrder⟩ := inOrder.append
  rcases place_of_readBlock failed with ⟨cutShort, place⟩ | ⟨whole, token, member, place⟩
  · refine ⟨?_, fun _ => place, fun whole => absurd cutShort whole, ?_⟩
    · rw [place]
      exact blockInOrder.here_le_finish
    · rw [place]
      constructor
      · intro notBehind
        refine .inr ?_
        cases others with
        | nil => rfl
        | cons next later =>
            obtain ⟨token, more, rfl⟩ :=
              List.exists_cons_of_ne_nil (nonempty next List.mem_cons_self)
            have inFront : token.place.offset < finish.offset :=
              othersInOrder.2 token (by simp)
            exact absurd notBehind (Nat.not_le_of_lt inFront)
      · rintro (whole | rfl)
        · exact absurd cutShort whole
        · exact Nat.le_refl _
  · refine ⟨?_, fun cutShort => absurd cutShort whole, fun _ => ⟨token, member, place⟩, ?_⟩
    · rw [place]
      exact blockInOrder.here_le member
    · rw [place]
      exact iff_of_true (Nat.le_of_lt (inOrder.lt_here member)) (.inl whole)

private theorem pairwise_faults (inOrder : InOrder finish found.flatten) :
    (ofBlocks finish found).faults.Pairwise fun fault later =>
      fault.place = finish ∨ fault.place.offset < later.place.offset := by
  rw [faults_ofBlocks, List.pairwise_filterMap]
  have ascending := (List.pairwise_flatten.1 inOrder.1).2
  refine ascending.imp_of_mem fun {block later} memberBlock _ isBefore => ?_
  intro fault failed laterFault failedLater
  rcases place_of_readBlock (eq_error_of_fault? failed) with ⟨-, place⟩ | ⟨-, token, member, place⟩
  · exact .inl place
  · right
    rw [place]
    rcases place_of_readBlock (eq_error_of_fault? failedLater) with
      ⟨-, placeLater⟩ | ⟨-, tokenLater, inLater, placeLater⟩
    · rw [placeLater]
      exact inOrder.2 token (List.mem_flatten.2 ⟨block, memberBlock, member⟩)
    · rw [placeLater]
      exact isBefore token member tokenLater inLater

/-- The faults of a document are those of its blocks, in their order. None is in front of its block.
It is at a token of the block, unless the block is the beginning of a rule that is cut short; then
it is at the end of the text, behind all blocks. Faults that are not at the end of the text are in
front of those of the blocks behind theirs. -/
theorem faults_placed (text : String) :
    (parse text).faults = (blocks (Scan.lenient text).tokens).filterMap
        (fun block => fault? (readBlock (Scan.lenient text).finish block)) ∧
      (∀ before block others fault,
        blocks (Scan.lenient text).tokens = before ++ block :: others →
        readBlock (Scan.lenient text).finish block = .error fault →
          IsPlaced (Scan.lenient text).finish block others fault) ∧
      (parse text).faults.Pairwise fun fault later =>
        fault.place = (Scan.lenient text).finish ∨ fault.place.offset < later.place.offset := by
  have whole : (blocks (Scan.lenient text).tokens).flatten = (Scan.lenient text).tokens :=
    flatten_splitFrom [] 0 _
  have inOrder := inOrder_lenient text
  rw [← whole] at inOrder
  refine ⟨faults_ofBlocks _ _, ?_, pairwise_faults inOrder⟩
  intro before block others fault split failed
  rw [split, List.flatten_append] at inOrder
  refine isPlaced inOrder.append.2 ?_ failed
  intro other member
  have isBlock : other ∈ blocks (Scan.lenient text).tokens := by
    rw [split]
    exact List.mem_append_right before (List.mem_cons_of_mem block member)
  exact ne_nil_of_mem_blocks isBlock

/-- The text of two rules that are no rules. The first is cut short where the second begins. -/
private def cutShortText : String :=
  "rule first \x7b when\nrule second \x7b \x7d"

private def firstBlock : List Token :=
  [⟨.keyword .rule, ⟨0, 1, 1⟩⟩, ⟨.name "first", ⟨5, 1, 6⟩⟩, ⟨.symbol .openBrace, ⟨11, 1, 12⟩⟩,
    ⟨.keyword .whenWord, ⟨13, 1, 14⟩⟩]

private def secondBlock : List Token :=
  [⟨.keyword .rule, ⟨18, 2, 1⟩⟩, ⟨.name "second", ⟨23, 2, 6⟩⟩, ⟨.symbol .openBrace, ⟨30, 2, 13⟩⟩,
    ⟨.symbol .closeBrace, ⟨32, 2, 15⟩⟩]

theorem lenient_cutShortText :
    Scan.lenient cutShortText = ⟨firstBlock ++ secondBlock, ⟨33, 2, 16⟩⟩ := by
  decide +kernel

theorem blocks_cutShortText :
    blocks (Scan.lenient cutShortText).tokens = [firstBlock, secondBlock] := by
  rw [lenient_cutShortText]
  decide

theorem readBlock_firstBlock :
    readBlock (Scan.lenient cutShortText).finish firstBlock =
      .error ⟨.expected .expression none, ⟨33, 2, 16⟩⟩ := by
  rw [lenient_cutShortText]
  exact eq_error_of_fault? (by decide +kernel)

private theorem faults_cutShortText :
    (parse cutShortText).faults =
      [⟨.expected .expression none, ⟨33, 2, 16⟩⟩,
        ⟨.expected (.whenKeyword "second") (some (.symbol .closeBrace)), ⟨32, 2, 15⟩⟩] := by
  rw [parse_eq, lenient_cutShortText]
  decide +kernel

theorem faults_placed_cutShortText :
    (parse cutShortText).faults = [firstBlock, secondBlock].filterMap
        (fun block => fault? (readBlock (Scan.lenient cutShortText).finish block)) ∧
      blocks (Scan.lenient cutShortText).tokens = [] ++ firstBlock :: [secondBlock] ∧
      readBlock (Scan.lenient cutShortText).finish firstBlock =
        .error ⟨.expected .expression none, ⟨33, 2, 16⟩⟩ ∧
      IsPlaced (Scan.lenient cutShortText).finish firstBlock [secondBlock]
        ⟨.expected .expression none, ⟨33, 2, 16⟩⟩ := by
  obtain ⟨faultsOfBlocks, placed, -⟩ := faults_placed cutShortText
  rw [blocks_cutShortText] at faultsOfBlocks
  exact ⟨faultsOfBlocks, blocks_cutShortText, readBlock_firstBlock,
    placed [] firstBlock [secondBlock] _ blocks_cutShortText readBlock_firstBlock⟩

/-- A fault may be behind the block that comes next, and in front of the fault before it. -/
theorem not_all_in_blocks :
    (¬ ∀ (text : String) (before : List (List Token)) (block : List Token)
      (others : List (List Token)) (fault : Grammar.Fault),
      blocks (Scan.lenient text).tokens = before ++ block :: others →
      readBlock (Scan.lenient text).finish block = .error fault →
        (here (Scan.lenient text).finish block).offset ≤ fault.place.offset ∧
        fault.place.offset ≤ (here (Scan.lenient text).finish others.flatten).offset) ∧
    ¬ ∀ text : String, (parse text).faults.Pairwise fun fault later =>
      fault.place.offset ≤ later.place.offset := by
  constructor
  · intro allInBlocks
    obtain ⟨-, notBehind⟩ := allInBlocks cutShortText [] firstBlock [secondBlock] _
      blocks_cutShortText readBlock_firstBlock
    exact absurd notBehind (by decide)
  · intro ascending
    have inOrder := ascending cutShortText
    rw [faults_cutShortText] at inOrder
    exact absurd inOrder (by decide)

end Document

end Rulebook
