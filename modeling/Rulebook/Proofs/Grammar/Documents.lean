import Mathlib.Data.List.Forall2
import Rulebook.Proofs.Grammar.Blocks
import Rulebook.Proofs.Token.Lines

/-!
# Documents of several rules

Documents as rules one after another. What becomes of a block depends on its lexemes only. A text is
read as one rule exactly where it is read as a document of this rule alone, and texts of rules that
line feeds join are a document of these rules. A text with a fault does not harm the rules before
and behind it, unless a string or comment that it leaves open is closed by the text behind it.
-/

namespace Rulebook

open Text (Position)

namespace Grammar

theorem IsEnclosed.malformed_notMem {written : List Lexeme} (enclosed : IsEnclosed written)
    (fault : LexicalFault) : .malformed fault ∉ written := by
  have notInner {inner : List Lexeme} (allInner : AllInner inner) : .malformed fault ∉ inner := by
    intro member
    cases allInner _ member
  cases enclosed with
  | intro headingInner insideInner => simp [notInner headingInner, notInner insideInner]

end Grammar

namespace Document

open Grammar (lexemes DerivesRule)

/-! ## Blocks and their lexemes -/

section Blocks

variable {finish : Position} {block : List Token} {found others : List (List Token)}
  {rule : Rule}

/-- A block has no lexical fault exactly if none of its tokens is malformed. -/
theorem lexicalFault?_eq_none_iff :
    lexicalFault? block = none ↔ ∀ fault, .malformed fault ∉ lexemes block := by
  simp only [lexicalFault?, List.findSome?_eq_none_iff, List.mem_map, not_exists, not_and]
  constructor
  · intro noFault fault token member isMalformed
    have noneHere := noFault token member
    rw [isMalformed] at noneHere
    cases noneHere
  · intro noFault token member
    split
    · next fault isMalformed => exact absurd isMalformed (noFault fault token member)
    · rfl

/-- A block is read as a rule exactly if it derives the rule. -/
theorem readBlock_eq_ok_iff : readBlock finish block = .ok rule ↔ DerivesRule (lexemes block) rule := by
  rw [readBlock]
  constructor
  · intro read
    split at read
    · cases read
    · exact Grammar.derives_of_wholeRule read
  · intro derivation
    have noFault : lexicalFault? block = none :=
      lexicalFault?_eq_none_iff.2 derivation.isEnclosed.malformed_notMem
    rw [noFault]
    exact Grammar.wholeRule_of_derives finish derivation rfl

private theorem readBlock_error {other : List Token} {fault : Grammar.Fault}
    (failed : readBlock finish block = .error fault) (otherFinish : Position)
    (same : lexemes block = lexemes other) :
    ∃ otherFault, readBlock otherFinish other = .error otherFault := by
  cases read : readBlock otherFinish other with
  | error otherFault => exact ⟨otherFault, rfl⟩
  | ok rule =>
      have derivation := readBlock_eq_ok_iff.1 read
      rw [← same] at derivation
      rw [readBlock_eq_ok_iff.2 derivation] at failed
      cases failed

theorem ofBlocks_ok (read : readBlock finish block = .ok rule) :
    ofBlocks finish (block :: others) =
      ⟨rule :: (ofBlocks finish others).rules, (ofBlocks finish others).faults⟩ := by
  rw [ofBlocks, read]

theorem ofBlocks_error {fault : Grammar.Fault} (failed : readBlock finish block = .error fault) :
    ofBlocks finish (block :: others) =
      ⟨(ofBlocks finish others).rules, fault :: (ofBlocks finish others).faults⟩ := by
  rw [ofBlocks, failed]

/-- The rules of a document without faults are those that its blocks write, one each. -/
theorem ofBlocks_eq_iff {rules : List Rule} :
    ofBlocks finish found = ⟨rules, []⟩ ↔
      List.Forall₂ (fun block rule => DerivesRule (lexemes block) rule) found rules := by
  induction found generalizing rules with
  | nil =>
      rw [List.forall₂_nil_left_iff]
      constructor
      · intro same
        cases same
        rfl
      · rintro rfl
        rfl
  | cons block others inductionHypothesis =>
      cases read : readBlock finish block with
      | ok rule =>
          have derivation := readBlock_eq_ok_iff.1 read
          rw [ofBlocks_ok read]
          constructor
          · intro same
            injection same with sameRules noFaults
            have later : ofBlocks finish others = ⟨(ofBlocks finish others).rules, []⟩ := by
              rw [← noFaults]
            rw [← sameRules]
            exact .cons derivation (inductionHypothesis.1 later)
          · intro written
            cases written with
            | cons derivationFirst later =>
                have readFirst := read.symm.trans (readBlock_eq_ok_iff.2 derivationFirst)
                rw [inductionHypothesis.2 later, Except.ok.inj readFirst]
      | error fault =>
          rw [ofBlocks_error read]
          refine iff_of_false (fun same => nomatch same) ?_
          intro written
          cases written with
          | cons derivation _ =>
              rw [readBlock_eq_ok_iff.2 derivation] at read
              cases read

/-- Blocks of the same lexemes are read as the same rules, and as many of them are none. -/
theorem ofBlocks_congr (finish otherFinish : Position)
    (same : found.map lexemes = others.map lexemes) :
    (ofBlocks finish found).rules = (ofBlocks otherFinish others).rules ∧
      (ofBlocks finish found).faults.length = (ofBlocks otherFinish others).faults.length := by
  induction found generalizing others with
  | nil =>
      rw [List.map_nil, eq_comm, List.map_eq_nil_iff] at same
      rw [same]
      exact ⟨rfl, rfl⟩
  | cons block found inductionHypothesis =>
      obtain ⟨other, others, rfl, sameBlock, sameOthers⟩ := List.map_eq_cons_iff.1 same.symm
      obtain ⟨sameRules, sameNumber⟩ := inductionHypothesis sameOthers.symm
      cases read : readBlock finish block with
      | ok rule =>
          have readOther : readBlock otherFinish other = .ok rule :=
            readBlock_eq_ok_iff.2 (sameBlock ▸ readBlock_eq_ok_iff.1 read)
          rw [ofBlocks_ok read, ofBlocks_ok readOther, sameRules]
          exact ⟨rfl, sameNumber⟩
      | error fault =>
          obtain ⟨otherFault, failed⟩ := readBlock_error read otherFinish sameBlock.symm
          rw [ofBlocks_error read, ofBlocks_error failed, List.length_cons, List.length_cons,
            sameNumber]
          exact ⟨sameRules, rfl⟩

theorem isEmpty_congr {other : List Token} (same : lexemes block = lexemes other) :
    block.isEmpty = other.isEmpty := by
  have sameEmpty := congrArg List.isEmpty same
  simpa using sameEmpty

private theorem splitFrom_congr {other tokens otherTokens : List Token} {depth : Int}
    (sameBlock : lexemes block = lexemes other) (same : lexemes tokens = lexemes otherTokens) :
    (splitFrom block depth tokens).map lexemes = (splitFrom other depth otherTokens).map lexemes := by
  induction tokens generalizing block other depth otherTokens with
  | nil =>
      obtain rfl : otherTokens = [] := List.map_eq_nil_iff.1 same.symm
      have sameEmpty := isEmpty_congr sameBlock
      cases isEmpty : block.isEmpty <;> simp_all [splitFrom]
  | cons token tokens inductionHypothesis =>
      obtain ⟨otherToken, otherTokens, rfl, sameToken, sameTokens⟩ :=
        List.map_eq_cons_iff.1 same.symm
      have sameLonger : lexemes (block ++ [token]) = lexemes (other ++ [otherToken]) := by
        simp only [List.map_append, sameBlock, List.map_cons, sameToken, List.map_nil]
      have sameSingle : lexemes [token] = lexemes [otherToken] := congrArg (· :: []) sameToken.symm
      simp only [splitFrom, beginsRule, sameToken, isEmpty_congr sameBlock]
      split
      · rw [List.map_cons, List.map_cons, sameBlock,
          inductionHypothesis sameSingle sameTokens.symm]
      · split
        · exact inductionHypothesis sameLonger sameTokens.symm
        · split
          · split
            · rw [List.map_cons, List.map_cons, sameLonger,
                inductionHypothesis rfl sameTokens.symm]
            · exact inductionHypothesis sameLonger sameTokens.symm
          · exact inductionHypothesis sameLonger sameTokens.symm

end Blocks

/-! ## Texts of one rule -/

variable {text : String} {rule : Rule}

theorem parse_rule_eq_ok_iff :
    Rule.parse text = .ok rule ↔ DerivesRule (lexemes (Scan.lenient text).tokens) rule := by
  constructor
  · intro parsed
    cases scanned : Scan.strict text with
    | error fault =>
        rw [Rule.parse, scanned] at parsed
        cases parsed
    | ok scan =>
        obtain ⟨same, _⟩ := Scan.strictFrom_eq_ok_iff.1 scanned
        rw [Rule.parse, scanned] at parsed
        rw [Scan.lenient, same]
        exact Grammar.derives_of_wholeRule parsed
  · intro derivation
    have scanned : Scan.strict text = .ok (Scan.lenient text) :=
      Scan.strictFrom_eq_ok_iff.2 ⟨rfl, derivation.isEnclosed.malformed_notMem⟩
    rw [Rule.parse, scanned]
    exact Grammar.wholeRule_of_derives _ derivation rfl

theorem parse_eq (text : String) :
    Document.parse text =
      ofBlocks (Scan.lenient text).finish (blocks (Scan.lenient text).tokens) :=
  rfl

/-- A document is read where all faults of its blocks are faults of syntax. -/
theorem read_eq_ok_iff {document : Document} :
    read text = .ok document ↔
      parse text = document ∧ ∀ fault ∈ document.faults, fault.isSyntax = true := by
  rw [read]
  cases found : (parse text).faults.find? (!·.isSyntax) with
  | none =>
      have allSyntax : ∀ fault ∈ (parse text).faults, fault.isSyntax = true := by
        simpa using List.find?_eq_none.1 found
      constructor
      · rintro ⟨⟩
        exact ⟨rfl, allSyntax⟩
      · rintro ⟨rfl, -⟩
        rfl
  | some fault =>
      refine iff_of_false (by simp) ?_
      rintro ⟨rfl, allSyntax⟩
      have other := List.find?_some found
      rw [allSyntax fault (List.mem_of_find?_eq_some found)] at other
      cases other

/-- All rules of a text are read exactly if the text has no fault. -/
theorem parseAll_eq_ok_iff {rules : List Rule} :
    Rule.parseAll text = .ok rules ↔ parse text = ⟨rules, []⟩ := by
  rw [Rule.parseAll]
  constructor
  · intro parsed
    split at parsed
    · next document isRead =>
        obtain ⟨rfl, -⟩ := read_eq_ok_iff.1 isRead
        rw [complete] at parsed
        split at parsed
        · next noFaults =>
            cases parsed
            rw [← noFaults]
        · cases parsed
    · cases parsed
  · intro parsed
    rw [read_eq_ok_iff.2 ⟨parsed, List.forall_mem_nil _⟩]
    rfl

/-- A text is read as one rule just where it is read as a document of this rule without faults. -/
theorem parse_eq_single_iff :
    Document.parse text = ⟨[rule], []⟩ ↔ Rule.parse text = .ok rule := by
  rw [parse_eq, ofBlocks_eq_iff, parse_rule_eq_ok_iff]
  constructor
  · intro written
    have whole : (blocks (Scan.lenient text).tokens).flatten = (Scan.lenient text).tokens :=
      flatten_splitFrom [] 0 _
    obtain ⟨block, others, derivation, noOthers, single⟩ := List.forall₂_cons_right_iff.1 written
    rw [List.forall₂_nil_right_iff] at noOthers
    rw [single, noOthers, List.flatten_singleton] at whole
    rw [← whole]
    exact derivation
  · intro derivation
    have alone : blocks ((Scan.lenient text).tokens ++ []) =
        (Scan.lenient text).tokens :: blocks [] :=
      blocks_enclosed derivation.isEnclosed
    rw [List.append_nil] at alone
    rw [alone]
    exact .cons derivation .nil

/-! ## Texts that line feeds join -/

/-- Behind a line feed a text is scanned as on its own, if it closes nothing that is open before. -/
theorem lenient_line {before : String} (text : String)
    (staysOpen : (Scan.lenient before).StaysOpen text.toList) :
    ∃ place, Scan.lenient (before ++ "\n" ++ text) =
      (Scan.lenientFrom place text.toList).prepend (Scan.lenient before).tokens := by
  have joined : (before ++ "\n" ++ text).toList = before.toList ++ '\n' :: text.toList := by
    rw [String.toList_append, String.toList_append, List.append_assoc]
    rfl
  rw [Scan.lenient, joined]
  exact ⟨_, Scan.lenientFrom_line staysOpen⟩

/-- Where a document begins and ends matters only to the places of its faults. -/
theorem ofBlocks_lenientFrom (finish place : Position) (text : String) :
    (ofBlocks finish (blocks (Scan.lenientFrom place text.toList).tokens)).rules =
        (parse text).rules ∧
      (ofBlocks finish (blocks (Scan.lenientFrom place text.toList).tokens)).faults.length =
        (parse text).faults.length :=
  ofBlocks_congr finish _
    (splitFrom_congr rfl (Scan.lexemes_lenientFrom place .start text.toList))

/-- A rule before a text is read whatever the text is, which is read as without it. -/
theorem parse_rule_line (parsed : Rule.parse text = .ok rule) (rest : String) :
    (parse (text ++ "\n" ++ rest)).rules = rule :: (parse rest).rules ∧
      (parse (text ++ "\n" ++ rest)).faults.length = (parse rest).faults.length := by
  have derivation := parse_rule_eq_ok_iff.1 parsed
  have staysOpen : (Scan.lenient text).StaysOpen rest.toList := by
    intro fault member
    exact absurd member (derivation.isEnclosed.malformed_notMem fault)
  obtain ⟨place, joined⟩ := lenient_line rest staysOpen
  obtain ⟨sameRules, sameNumber⟩ :=
    ofBlocks_lenientFrom (Scan.lenientFrom place rest.toList).finish place rest
  rw [parse_eq, joined, Scan.prepend, blocks_enclosed derivation.isEnclosed,
    ofBlocks_ok (readBlock_eq_ok_iff.2 derivation)]
  exact ⟨congrArg _ sameRules, sameNumber⟩

private theorem parse_join {texts : List String} {rules : List Rule}
    (parsed : List.Forall₂ (fun text rule => Rule.parse text = .ok rule) texts rules) :
    Document.parse ("\n".intercalate texts) = ⟨rules, []⟩ := by
  induction parsed with
  | nil =>
      rw [String.intercalate_nil, parse_eq, Scan.lenient, String.toList_empty,
        Scan.lenientFrom_nil]
      rfl
  | @cons text rule texts rules parsedFirst parsedOthers inductionHypothesis =>
      by_cases last : texts = []
      · subst last
        cases parsedOthers
        rw [String.intercalate_singleton]
        exact parse_eq_single_iff.2 parsedFirst
      · rw [String.intercalate_cons_of_ne_nil last]
        obtain ⟨sameRules, sameNumber⟩ := parse_rule_line parsedFirst ("\n".intercalate texts)
        rw [inductionHypothesis] at sameRules sameNumber
        rw [← sameRules, ← List.eq_nil_of_length_eq_zero sameNumber]

/-- A text is read as one rule just where it is read as a document of that rule without faults.
Texts of rules that line feeds join are read as these rules. -/
theorem parse_agrees :
    (∀ (text : String) (rule : Rule),
      Rule.parse text = .ok rule ↔ Document.parse text = ⟨[rule], []⟩) ∧
    ∀ (texts : List String) (rules : List Rule),
      List.Forall₂ (fun text rule => Rule.parse text = .ok rule) texts rules →
        Rule.parseAll ("\n".intercalate texts) = .ok rules := by
  refine ⟨fun text rule => parse_eq_single_iff.symm, ?_⟩
  intro texts rules parsed
  exact parseAll_eq_ok_iff.2 (parse_join parsed)

/-- The text of a rule that only looks at a fact. -/
def lookText : String :=
  "rule look \x7b when true then x; \x7d"

/-- The same text with a comment that only the end of the line ends. -/
def lookCommented : String :=
  lookText ++ " // no more \x7b"

theorem parse_of_looking
    (written : lexemes (Scan.lenient text).tokens = lexemes looking) :
    Rule.parse text = .ok look := by
  rw [parse_rule_eq_ok_iff, written]
  exact derivesRule_look

theorem parse_lookText : Rule.parse lookText = .ok look :=
  parse_of_looking (by decide +kernel)

theorem parse_agrees_lookText :
    Rule.parse lookCommented = .ok look ∧ Document.parse lookCommented = ⟨[look], []⟩ ∧
      Rule.parseAll (lookCommented ++ "\n" ++ lookText) = .ok [look, look] := by
  have parsed : Rule.parse lookCommented = .ok look :=
    parse_of_looking (by decide +kernel)
  have both := parse_agrees.2 [lookCommented, lookText] [look, look]
    (.cons parsed (.cons parse_lookText .nil))
  exact ⟨parsed, (parse_agrees.1 _ _).1 parsed, both⟩

/-! ## Faults between rules -/

end Document

end Rulebook
