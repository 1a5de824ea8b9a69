import Rulebook.Proofs.Expr.Folding
import Rulebook.Proofs.Grammar.RuleCompleteness

/-!
# Printing and reading rules

Printing a rule and reading its text. The text is taken from its end to its beginning: each of its
parts is read in front of all that follow. Only a salience of too many digits has no text; the bound
on the digits is the same where integers are written and where they are read.
-/

namespace Rulebook

open Scan (Reads)
open Grammar (DerivesAction DerivesActions DerivesSalience DerivesRule descriptionLexemes
  leastPrecedence)

/-! ## Rules that have a text -/

/-- Whether an expression may stand as an action in the text of a rule: it has no assignments, or
assigns a value without assignments to a path without assignments. -/
inductive Expr.IsAction : Expr → Prop
  | evaluated {e : Expr} : e.hasAssignment = false → IsAction e
  | assigned {target value : Expr} :
      target.isPath = true →
      target.hasAssignment = false →
      value.hasAssignment = false →
      IsAction (.assign target value)

/-- What a rule needs in order to have a text that is read back. -/
structure Rule.IsWritable (rule : Rule) : Prop where
  name : IsName rule.name
  condition : rule.condition.hasAssignment = false
  actions_ne_nil : rule.actions ≠ []
  actions : ∀ action ∈ rule.actions, action.IsAction
  parts : ∀ e ∈ rule.condition :: rule.actions, e.IsWritable

/-- A rule with each negation of a number literal as a literal. -/
def Rule.folded (rule : Rule) : Rule :=
  { rule with condition := rule.condition.folded, actions := rule.actions.map Expr.folded }

/-! ## Blanks -/

theorem isBlank_newline : Text.isBlank '\n' = true := by
  decide

theorem reads_indent (n : Nat) {cs : List Char} {lexemes : List Lexeme}
    (read : Reads cs lexemes) : Reads (List.replicate n ' ' ++ cs) lexemes := by
  refine Scan.reads_blanks ?_ read
  intro c member
  rw [List.eq_of_mem_replicate member]
  exact isBlank_space

/-! ## Actions -/

private theorem isPath_folded {e : Expr} (path : e.isPath = true) : e.folded.isPath = true := by
  rw [Expr.isPath, Option.isSome_iff_exists] at path ⊢
  obtain ⟨name, root⟩ := path
  exact ⟨name, Expr.root?_folded root⟩

theorem reads_semicolon {rest : List Char} {others : List Lexeme} (read : Reads rest others) :
    Reads (';' :: rest) (.symbol .semicolon :: others) :=
  reads_symbol .semicolon trivial read

theorem reads_action {action : Expr} (isAction : action.IsAction) (writable : action.IsWritable) :
    ∃ lexemes, DerivesAction lexemes action.folded ∧
      ∀ rest others, Reads rest others →
        Reads (action.toText.toList ++ ';' :: rest) (lexemes ++ others) := by
  have separated (rest : List Char) : Separates (';' :: rest) :=
    separates_sign rest (by decide) (by decide)
  cases isAction with
  | evaluated free =>
      obtain ⟨_, lexemes, derivation, spelled⟩ := Expr.toText_writes writable free
      refine ⟨_, .evaluated derivation, ?_⟩
      intro rest others read
      rw [List.append_assoc]
      exact spelled _ _ (separated rest) (reads_semicolon read)
  | @assigned target value path targetFree valueFree =>
      have targetPart : target ∈ (Expr.assign target value).children := by simp [Expr.children]
      have valuePart : value ∈ (Expr.assign target value).children := by simp [Expr.children]
      obtain ⟨_, targetLexemes, targetDerivation, targetSpelled⟩ :=
        Expr.toText_writes (writable.child targetPart) targetFree
      obtain ⟨_, valueLexemes, valueDerivation, valueSpelled⟩ :=
        Expr.toText_writes (writable.child valuePart) valueFree
      refine ⟨_, .assigned targetDerivation (isPath_folded path) valueDerivation, ?_⟩
      intro rest others read
      have written : (Expr.assign target value).toText.toList =
          target.toText.toList ++ ' ' :: '=' :: ' ' :: value.toText.toList := by
        simp [Expr.toText, Expr.print, String.toList_append]
      have behind := Scan.reads_blank isBlank_space
        (valueSpelled _ _ (separated rest) (reads_semicolon read))
      have signed := Scan.reads_blank isBlank_space
        (reads_symbol .assign (endsBefore_space (.symbol .assign) _) behind)
      rw [written]
      simp only [List.append_assoc, List.cons_append, List.nil_append]
      exact targetSpelled _ _ (separates_blank _ (.inl rfl)) signed

def actionLines (actions : List Expr) : List Char :=
  actions.flatMap fun action =>
    List.replicate 8 ' ' ++ (action.toText.toList ++ [';', '\n'])

private theorem reads_actionLines {actions : List Expr} (areActions : ∀ action ∈ actions, action.IsAction)
    (writable : ∀ action ∈ actions, action.IsWritable) :
    ∃ lexemes, DerivesActions lexemes (actions.map Expr.folded) ∧
      ∀ rest others, Reads rest others →
        Reads (actionLines actions ++ rest) (lexemes ++ others) := by
  induction actions with
  | nil => exact ⟨[], .nil, fun rest others read => read⟩
  | cons action actions inductionHypothesis =>
      obtain ⟨first, firstDerivation, readFirst⟩ :=
        reads_action (areActions action List.mem_cons_self) (writable action List.mem_cons_self)
      obtain ⟨later, laterDerivation, readLater⟩ := inductionHypothesis
        (fun other member => areActions other (List.mem_cons_of_mem action member))
        (fun other member => writable other (List.mem_cons_of_mem action member))
      refine ⟨_, .cons firstDerivation laterDerivation, ?_⟩
      intro rest others read
      have behind := Scan.reads_blank isBlank_newline (readLater rest others read)
      have line := reads_indent 8 (readFirst _ _ behind)
      rw [actionLines, List.flatMap_cons]
      simp only [List.append_assoc, List.cons_append, List.nil_append]
      exact line

/-! ## Headers -/

def descriptionText : Option Text.Quotable → List Char
  | some text => ' ' :: text.written.toList
  | none => []

private theorem toList_descriptionText (description : Option Text.Quotable) :
    (Rule.descriptionText description).toList = descriptionText description := by
  cases description with
  | none => rfl
  | some text =>
      rw [Rule.descriptionText, String.toList_append]
      rfl

private theorem reads_descriptionText (description : Option Text.Quotable) {rest : List Char}
    {others : List Lexeme} (read : Reads rest others) :
    Reads (descriptionText description ++ rest) (descriptionLexemes description ++ others) := by
  cases description with
  | none => exact read
  | some text =>
      have written : (Lexeme.string text).IsWritten := trivial
      have quoted := Scan.reads_chars written trivial read
      exact Scan.reads_blank isBlank_space quoted

/-- Whether an integer has no more digits than can be written and read. -/
def IsShort (n : Int) : Prop :=
  (Number.digits n.natAbs).length ≤ Number.digitBound

/-- Short integers are those below a power of ten. -/
theorem isShort_iff {n : Int} : IsShort n ↔ n.natAbs < 10 ^ Number.digitBound :=
  Number.length_digits_le_iff (by decide)

theorem integerText?_eq_some_iff {n : Int} {text : String} :
    Number.integerText? n = some text ↔ IsShort n ∧ toString n = text := by
  rw [Number.integerText?, IsShort, ← Nat.not_lt]
  split <;> simp_all

/-- A salience with the keyword and the blanks before it; one of zero is left out. -/
def salienceText (salience : Int) : List Char :=
  if salience = 0 then []
  else ' ' :: (Keyword.salience.text.toList ++ ' ' :: (toString salience).toList)

private theorem toList_toString (n : Int) :
    (toString n).toList = if 0 ≤ n then Number.digits n.toNat
      else '-' :: Number.digits (-n).toNat := by
  rw [Int.toString_eq_repr, Int.repr_eq_if]
  split <;> simp [Nat.toList_repr, Number.toDigits_eq_digits, String.toList_append]

def wholeNumeral (n : Nat) : Numeral :=
  ⟨Number.digits n, none⟩

private theorem wholeNumeral_wellFormed (n : Nat) : (wholeNumeral n).WellFormed :=
  ⟨Number.digits_ne_nil n, fun _ => Number.isDigit_of_mem_digits, by simp [wholeNumeral],
    by simp [wholeNumeral]⟩

private theorem natural?_wholeNumeral (n : Nat) : (wholeNumeral n).natural? = some n :=
  congrArg some (Number.digitsValue_digits n)

/-- The numeral of a short number is read back. -/
theorem toNat?_wholeNumeral {n : Nat} (short : IsShort n) : (wholeNumeral n).toNat? = some n := by
  have notLong : (wholeNumeral n).isOverlong = false := by
    rw [Numeral.isOverlong, Bool.and_eq_false_iff, decide_eq_false_iff_not]
    exact .inr (Nat.not_lt_of_le short)
  exact Numeral.toNat?_eq_some_iff.2 ⟨natural?_wholeNumeral n, notLong⟩

theorem spells_digits (n : Nat) : Spells (Number.digits n) [.number (wholeNumeral n)] := by
  have written : (Lexeme.number (wholeNumeral n)).IsWritten := wholeNumeral_wellFormed n
  exact spells_lexeme written (by simp)

theorem reads_keyword (word : Keyword) {rest : List Char} {others : List Lexeme}
    (separates : Separates rest) (read : Reads rest others) :
    Reads (word.text.toList ++ rest) (.keyword word :: others) := by
  have written : (Lexeme.keyword word).IsWritten := trivial
  exact spells_lexeme written (by simp) rest others separates read

private theorem reads_salienceText {salience : Int} (short : IsShort salience) :
    ∃ lexemes, DerivesSalience lexemes salience ∧
      ∀ rest others, Separates rest → Reads rest others →
        Reads (salienceText salience ++ rest) (lexemes ++ others) := by
  by_cases zero : salience = 0
  · subst zero
    exact ⟨[], .omitted, fun rest others _ read => read⟩
  · have behindKeyword {digits rest : List Char} {lexemes : List Lexeme}
        (read : Reads (digits ++ rest) lexemes) :
        Reads (' ' :: (Keyword.salience.text.toList ++ ' ' :: digits) ++ rest)
          (.keyword .salience :: lexemes) := by
      rw [List.cons_append, List.append_assoc, List.cons_append]
      have word := reads_keyword .salience (separates_blank (digits ++ rest) (.inl rfl))
        (Scan.reads_blank isBlank_space read)
      exact Scan.reads_blank isBlank_space word
    rw [salienceText, if_neg zero, toList_toString]
    by_cases positive : 0 ≤ salience
    · obtain ⟨n, rfl⟩ := Int.eq_ofNat_of_zero_le positive
      rw [if_pos positive]
      refine ⟨_, .positive (toNat?_wholeNumeral short), ?_⟩
      intro rest others separates read
      exact behindKeyword (spells_digits n rest others separates read)
    · obtain ⟨n, negative⟩ := Int.eq_ofNat_of_zero_le (show 0 ≤ -salience by omega)
      obtain rfl : salience = -(n : Int) := by omega
      rw [if_neg positive]
      have shortSize : IsShort n := by rwa [IsShort, Int.natAbs_neg] at short
      refine ⟨_, .negative (toNat?_wholeNumeral shortSize), ?_⟩
      intro rest others separates read
      have digits := reads_symbol .minus trivial (spells_digits n rest others separates read)
      rw [Int.neg_neg, Int.toNat_natCast]
      exact behindKeyword digits

private theorem separates_descriptionText (description : Option Text.Quotable) {rest : List Char}
    (separates : Separates rest) : Separates (descriptionText description ++ rest) := by
  cases description with
  | none => exact separates
  | some text => exact separates_blank _ (.inl rfl)

private theorem separates_salienceText (salience : Int) {rest : List Char} (separates : Separates rest) :
    Separates (salienceText salience ++ rest) := by
  rw [salienceText]
  split
  · exact separates
  · exact separates_blank _ (.inl rfl)

/-- The texts of saliences: all but those with too many digits have one. -/
theorem salienceText?_eq_some_iff {salience : Int} {text : String} :
    Rule.salienceText? salience = some text ↔
      IsShort salience ∧ text.toList = salienceText salience := by
  have zero : IsShort 0 := isShort_iff.2 (Nat.pow_pos (by decide))
  rw [Rule.salienceText?, salienceText]
  split
  · next isZero =>
      rw [isZero, String.toList_eq_nil_iff, Option.some.injEq]
      exact ⟨fun same => ⟨zero, same.symm⟩, fun both => both.2.symm⟩
  · rw [Option.map_eq_some_iff]
    constructor
    · rintro ⟨digits, written, rfl⟩
      obtain ⟨short, rfl⟩ := integerText?_eq_some_iff.1 written
      exact ⟨short, String.toList_append⟩
    · rintro ⟨short, same⟩
      refine ⟨_, integerText?_eq_some_iff.2 ⟨short, rfl⟩, String.toList_injective ?_⟩
      rw [same, String.toList_append]
      rfl

private theorem toList_header {rule : Rule} {header : String} (written : rule.header? = some header) :
    header.toList = Keyword.rule.text.toList ++ (' ' :: (rule.name.toList ++
      (descriptionText rule.description ++ salienceText rule.salience))) := by
  obtain ⟨salience, isSalience, rfl⟩ := Option.map_eq_some_iff.1 written
  have start : "rule ".toList = Keyword.rule.text.toList ++ [' '] := rfl
  calc _
    _ = Keyword.rule.text.toList ++ [' '] ++ rule.name.toList ++
          descriptionText rule.description ++ salienceText rule.salience := by
        rw [String.toList_append, String.toList_append, String.toList_append, start,
          toList_descriptionText, (salienceText?_eq_some_iff.1 isSalience).2]
    _ = Keyword.rule.text.toList ++ (' ' :: (rule.name.toList ++
          (descriptionText rule.description ++ salienceText rule.salience))) := by
        simp only [List.append_assoc, List.cons_append, List.nil_append]

/-! ## Rules -/

private theorem toList_intercalate_lines (lines : List String) (last : String) :
    ("\n".intercalate (lines ++ [last])).toList =
      lines.flatMap (fun line => line.toList ++ ['\n']) ++ last.toList := by
  induction lines with
  | nil => simp
  | cons line lines inductionHypothesis =>
      rw [List.cons_append, String.intercalate_cons_of_ne_nil (by simp), String.toList_append,
        String.toList_append, inductionHypothesis, List.flatMap_cons]
      simp only [List.append_assoc]
      rfl

private theorem toList_linesFrom (header : String) (rule : Rule) :
    ("\n".intercalate (rule.linesFrom header)).toList =
      header.toList ++ (' ' :: '{' :: '\n' :: (List.replicate 4 ' ' ++
        (Keyword.whenWord.text.toList ++ '\n' :: (List.replicate 8 ' ' ++
          (rule.condition.toText.toList ++ '\n' :: (List.replicate 4 ' ' ++
            (Keyword.thenWord.text.toList ++ '\n' :: (actionLines rule.actions ++ ['}'])))))))) := by
  have actions : (rule.actions.map fun action => "        " ++ action.toText ++ ";").flatMap
      (fun line => line.toList ++ ['\n']) = actionLines rule.actions := by
    rw [actionLines, List.flatMap_map]
    congr
    funext action
    rw [String.toList_append, String.toList_append, List.append_assoc, List.append_assoc]
    rfl
  rw [Rule.linesFrom, toList_intercalate_lines, List.flatMap_append, actions]
  simp only [List.flatMap_cons, List.flatMap_nil, String.toList_append, List.append_assoc,
    List.nil_append]
  rfl

/-- A rule has a text exactly if its salience is short. -/
theorem isSome_toText?_iff {rule : Rule} : rule.toText?.isSome = true ↔ IsShort rule.salience := by
  rw [Rule.toText?, Option.isSome_map, Rule.header?, Option.isSome_map, Option.isSome_iff_exists]
  simp only [salienceText?_eq_some_iff, exists_and_left]
  exact and_iff_left ⟨String.ofList (salienceText rule.salience), String.toList_ofList⟩

private theorem reads_toText? {rule : Rule} (writable : rule.IsWritable) {text : String}
    (written : rule.toText? = some text) :
    ∃ lexemes, DerivesRule lexemes rule.folded ∧ Reads text.toList lexemes := by
  have short : IsShort rule.salience := isSome_toText?_iff.1 (by rw [written, Option.isSome_some])
  obtain ⟨header, isHeader, rfl⟩ := Option.map_eq_some_iff.1 written
  have inCondition : rule.condition.IsWritable := writable.parts _ List.mem_cons_self
  have inActions : ∀ action ∈ rule.actions, action.IsWritable := fun action member =>
    writable.parts action (List.mem_cons_of_mem _ member)
  obtain ⟨_, conditionLexemes, conditionDerivation, conditionSpelled⟩ :=
    Expr.toText_writes inCondition writable.condition
  obtain ⟨actionLexemes, actionDerivation, readActions⟩ :=
    reads_actionLines writable.actions inActions
  obtain ⟨salienceLexemes, salienceDerivation, readSalience⟩ := reads_salienceText short
  have nonempty : rule.folded.actions ≠ [] := by
    simpa [Rule.folded] using writable.actions_ne_nil
  refine ⟨_, .intro salienceDerivation conditionDerivation actionDerivation nonempty, ?_⟩
  have closed : Reads ['}'] [.symbol .closeBrace] :=
    reads_symbol .closeBrace trivial Scan.reads_nil
  have thenPart := reads_indent 4 (reads_keyword .thenWord (separates_blank _ (.inr rfl))
    (Scan.reads_blank isBlank_newline (readActions _ _ closed)))
  have conditionPart := reads_indent 8 (conditionSpelled _ _ (separates_blank _ (.inr rfl))
    (Scan.reads_blank isBlank_newline thenPart))
  have whenPart := reads_indent 4 (reads_keyword .whenWord (separates_blank _ (.inr rfl))
    (Scan.reads_blank isBlank_newline conditionPart))
  have brace : Reads ('{' :: '\n' :: _) (.symbol .openBrace :: _) :=
    reads_symbol .openBrace trivial (Scan.reads_blank isBlank_newline whenPart)
  have opened := Scan.reads_blank isBlank_space brace
  have separated (cs : List Char) : Separates
      (descriptionText rule.description ++ (salienceText rule.salience ++ ' ' :: cs)) :=
    separates_descriptionText rule.description
      (separates_salienceText rule.salience (separates_blank cs (.inl rfl)))
  have described := reads_descriptionText rule.description
    (readSalience _ _ (separates_blank _ (.inl rfl)) opened)
  have writtenName : (Lexeme.name rule.name).IsWritten := writable.name
  have named := spells_lexeme writtenName (by simp) _ _ (separated _) described
  have whole := reads_keyword .rule (separates_blank _ (.inl rfl))
    (Scan.reads_blank isBlank_space named)
  rw [toList_linesFrom, toList_header isHeader]
  simp only [List.append_assoc, List.cons_append]
  exact whole

/-- A rule has a text unless its salience has too many digits. The text is read as the rule with each
negation of a number literal as a literal, and as the rule itself if it has none. -/
theorem parse_toText? (rule : Rule) (writable : rule.IsWritable) :
    (rule.toText?.isSome = true ↔ rule.salience.natAbs < 10 ^ Number.digitBound) ∧
      ∀ text, rule.toText? = some text →
        Rule.parse text = .ok rule.folded ∧
          ((∀ e ∈ rule.condition :: rule.actions, ∀ operand x,
              .unary .negate operand ∈ e.walk → operand.folded ≠ .number x) →
            Rule.parse text = .ok rule) := by
  refine ⟨isSome_toText?_iff.trans isShort_iff, fun text written => ?_⟩
  have parsed : Rule.parse text = .ok rule.folded := by
    obtain ⟨lexemes, derivation, reads⟩ := reads_toText? writable written
    obtain ⟨scan, scanned, found⟩ := reads Text.Position.start
    rw [Rule.parse, Scan.strict, scanned]
    exact Grammar.wholeRule_of_derives scan.finish derivation found
  refine ⟨parsed, fun noLiteral => ?_⟩
  have condition : rule.condition.folded = rule.condition :=
    Expr.folded_eq_self (noLiteral _ List.mem_cons_self)
  have actions : rule.actions.map Expr.folded = rule.actions := by
    have unchanged : ∀ action ∈ rule.actions, action.folded = action := fun action member =>
      Expr.folded_eq_self (noLiteral action (List.mem_cons_of_mem _ member))
    exact (List.map_congr_left unchanged).trans (List.map_id _)
  rw [parsed, Rule.folded, condition, actions]

/-- A rule that writes a negative literal, a negation below a field, and a text with quotes. -/
private def surcharge : Rule where
  name := "surcharge"
  salience := -5
  condition := .binary (.comparison .less) (.field (.unary .negate (.fact "order")) "rest")
    (.number (-3))
  actions := [.assign (.field (.fact "order") "fee") (.number 2.5)]
  description := some ⟨"a \"fee\"", by decide⟩

theorem surcharge_isWritable : surcharge.IsWritable := by
  have digits (cs : List Char) (checked : cs.all Text.isDigit = true) :
      ∀ c ∈ cs, Text.isDigit c = true := List.all_eq_true.1 checked
  have three : Number.ReadsBack (-3) := by
    have written : Numeral.WellFormed ⟨['3'], none⟩ :=
      ⟨by decide, digits _ (by decide +kernel), by simp, by simp⟩
    have value : Expr.signedFloat true ⟨['3'], none⟩ = -3 := by decide +kernel
    refine ⟨⟨true, 6755399441055744, -51, by decide +kernel⟩, ?_⟩
    rw [Expr.parse_signed_numeral written (show _ = Number.signed true _ by decide +kernel), value]
  have half : Number.ReadsBack 2.5 := by
    have written : Numeral.WellFormed ⟨['2'], some ['5']⟩ := by
      refine ⟨by decide, digits _ (by decide +kernel), by simp, ?_⟩
      rintro fraction ⟨⟩
      exact digits _ (by decide +kernel)
    have value : Expr.signedFloat false ⟨['2'], some ['5']⟩ = 2.5 := by decide +kernel
    refine ⟨⟨false, 5629499534213120, -51, by decide +kernel⟩, ?_⟩
    rw [Expr.parse_signed_numeral written (show _ = Number.signed false _ by decide +kernel), value]
  have isName (c : Char) (cs : List Char) (start : startsName c = true)
      (continued : cs.all continuesName = true)
      (plain : Keyword.ofText? (String.ofList (c :: cs)) = none) :
      IsName (String.ofList (c :: cs)) :=
    ⟨c, cs, String.toList_ofList, start, List.all_eq_true.1 continued, plain⟩
  have order : IsName "order" := isName 'o' _ (by decide +kernel) (by decide +kernel) (by decide)
  have rest : IsName "rest" := isName 'r' _ (by decide +kernel) (by decide +kernel) (by decide)
  have fee : IsName "fee" := isName 'f' _ (by decide +kernel) (by decide +kernel) (by decide)
  have name : IsName "surcharge" :=
    isName 's' _ (by decide +kernel) (by decide +kernel) (by decide)
  refine ⟨name, ?_, by simp [surcharge], ?_, ?_⟩
  · simp [surcharge, Expr.hasAssignment_eq, Expr.isAssignment, Expr.children]
  · simp only [surcharge, List.forall_mem_singleton]
    refine .assigned rfl ?_ ?_ <;>
      simp [Expr.hasAssignment_eq, Expr.isAssignment, Expr.children]
  · simp [surcharge, Expr.IsWritable, Expr.walk, Expr.walkAll, Expr.children,
      Expr.NodeIsWritable, three, half, order, rest, fee]

theorem parse_toText?_surcharge :
    surcharge.IsWritable ∧
      ∃ text, surcharge.toText? = some text ∧ Rule.parse text = .ok surcharge.folded := by
  obtain ⟨hasText, readBack⟩ := parse_toText? surcharge surcharge_isWritable
  have short : surcharge.salience.natAbs < 10 ^ Number.digitBound :=
    Nat.lt_of_lt_of_le (by decide : 5 < 10 ^ 1) (Nat.pow_le_pow_right (by decide) (by decide))
  obtain ⟨text, written⟩ := Option.isSome_iff_exists.1 (hasText.2 short)
  exact ⟨surcharge_isWritable, text, written, (readBack text written).1⟩

/-- A rule whose salience has one digit too many has no text. -/
theorem not_all_have_text :
    ¬ ∀ rule : Rule, rule.IsWritable →
      ∃ text, rule.toText? = some text ∧ Rule.parse text = .ok rule.folded := by
  intro allHaveText
  have writable : { surcharge with salience := 10 ^ Number.digitBound }.IsWritable :=
    ⟨surcharge_isWritable.name, surcharge_isWritable.condition,
      surcharge_isWritable.actions_ne_nil, surcharge_isWritable.actions,
      surcharge_isWritable.parts⟩
  obtain ⟨text, written, -⟩ := allHaveText _ writable
  have short := isShort_iff.1 (isSome_toText?_iff.1 (by rw [written, Option.isSome_some]))
  have base : (10 : Int).natAbs = 10 := rfl
  rw [Int.natAbs_pow, base] at short
  exact Nat.lt_irrefl _ short

end Rulebook
