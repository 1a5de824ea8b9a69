import Rulebook.Proofs.Grammar.ActionRecognition

/-!
# Recognition of rules

The reader of rules. Its parts read what is written in front of the braces, the condition, and the
actions, each behind the lexemes that the parts before it have read; together they take what the
grammar derives.
-/

namespace Rulebook.Grammar

open Text (Position Quotable)

variable {finish : Position} {past : List Lexeme} {tokens : List Token}

/-! ## The heading -/

section Heading

variable {name : String} {text : Option Quotable}

def nameOf? : Lexeme → Option String
  | .name name => some name
  | _ => none

def wholeOf? : Lexeme → Option Nat
  | .number numeral => numeral.toNat?
  | _ => none

theorem nameOf?_eq_some {lexeme : Lexeme} (found : nameOf? lexeme = some name) :
    lexeme = .name name := by
  cases lexeme with
  | name other => exact congrArg Lexeme.name (Option.some.inj found)
  | _ => cases found

theorem wholeOf?_eq_some {lexeme : Lexeme} {n : Nat} (found : wholeOf? lexeme = some n) :
    ∃ numeral, lexeme = .number numeral ∧ numeral.toNat? = some n := by
  cases lexeme with
  | number numeral => exact ⟨numeral, rfl, found⟩
  | _ => cases found

private theorem takesOne_ruleName :
    TakesOne finish (.expected .ruleName) nameOf? (ruleName finish) := by
  constructor
  · intro lexeme place rest name found
    obtain rfl := nameOf?_eq_some found
    rfl
  · intro tokens notFound
    rw [ruleName.eq_def]
    split
    · cases notFound
    · rfl

def salienceCause : Option Lexeme → Cause
  | some (.number numeral) =>
    if numeral.isOverlong then .tooManyDigits numeral.whole.length
    else .expected .salience (some (.number numeral))
  | next => .expected .salience next

private theorem takesOne_salienceDigits :
    TakesOne finish salienceCause wholeOf? (salienceDigits finish) := by
  constructor
  · intro lexeme place rest n found
    obtain ⟨numeral, rfl, whole⟩ := wholeOf?_eq_some found
    exact salienceDigits_of_toNat? finish whole place rest
  · intro tokens notFound
    rw [salienceDigits.eq_def]
    split
    · next numeral place rest =>
        have noWhole : numeral.toNat? = none := notFound
        cases long : numeral.isOverlong <;>
          simp [noWhole, long, missing, next?, here, salienceCause]
    · next noNumber =>
        cases tokens with
        | nil => rfl
        | cons token rest =>
            have otherwise (numeral : Numeral) : some token.lexeme ≠ some (.number numeral) := by
              intro same
              exact noNumber numeral token.place rest (by rw [← Option.some.inj same])
            rw [next?, List.head?_cons, Option.map_some, salienceCause.eq_2 _ otherwise]
            rfl

theorem TakesOne.map {α β : Type} {cause : Option Lexeme → Cause} {value? : Lexeme → Option α}
    {reader : Reader α} (takesOne : TakesOne finish cause value? reader) (f : α → β) :
    TakesOne finish cause (fun lexeme => (value? lexeme).map f)
      (fun tokens => (reader tokens).map fun (value, rest) => (f value, rest)) := by
  constructor
  · intro lexeme place rest result found
    obtain ⟨value, isValue, rfl⟩ := Option.map_eq_some_iff.1 found
    rw [takesOne.found lexeme place rest value isValue]
    rfl
  · intro tokens notFound
    have noValue : (next? tokens).bind value? = none := by
      simpa [Option.bind_eq_none_iff] using notFound
    rw [takesOne.notFound tokens noValue]
    rfl

theorem headingLexemes_append (name : String) (text : Option Quotable) (first more : List Lexeme) :
    headingLexemes name text first ++ more = headingLexemes name text (first ++ more) := by
  simp [headingLexemes]

theorem begins_ruleKeyword : BeginsRule ([] ++ [.keyword .rule]) := by
  have heading : BeginsRule (headingLexemes "rule" none []) := begins_heading .omitted
  have begun : BeginsRule ([] ++ [.keyword .rule] ++ [.name "rule"]) := heading
  exact begun.of_append

private theorem reads_ruleName :
    Reads finish (fun whole name => whole = headingLexemes name none []) ([] ++ [.keyword .rule])
      (ruleName finish) tokens := by
  refine Reads.single takesOne_ruleName (blames_missing begins_ruleKeyword .ruleName) ?_
  intro lexeme name found
  obtain rfl := nameOf?_eq_some found
  rfl

def WritesSalience (name : String) (text : Option Quotable) (whole : List Lexeme) (n : Int) :
    Prop :=
  ∃ salienceLexemes, DerivesSalience salienceLexemes n ∧
    whole = headingLexemes name text salienceLexemes

/-- What is blamed where no digits stand behind the keyword of a salience or its sign. -/
theorem blames_salienceCause (begins : BeginsRule past) (ends : EndsInSalience past) :
    Blames finish past [] tokens ⟨salienceCause (next? tokens), here finish tokens⟩ := by
  rw [salienceCause.eq_def]
  split
  · next numeral isNumber =>
      cases long : numeral.isOverlong with
      | true =>
          rw [← List.append_nil past] at begins ends
          exact .overflow begins ends isNumber long
      | false => exact blames_next begins Cause.noConfusion rfl rfl
  · exact blames_next begins Cause.noConfusion rfl rfl

theorem reads_salienceDigits {sign : List Lexeme} (isSign : sign = [] ∨ sign = [.symbol .minus])
    (signed : Nat → Int)
    (derives : ∀ {numeral n}, numeral.toNat? = some n →
      DerivesSalience (.keyword .salience :: (sign ++ [.number numeral])) (signed n)) :
    Reads finish (WritesSalience name text) (headingLexemes name text (.keyword .salience :: sign))
      (fun tokens => (salienceDigits finish tokens).map fun (n, behind) => (signed n, behind))
      tokens := by
  have begun : BeginsRule (headingLexemes name text (.keyword .salience :: sign)) := by
    have zero : Numeral.toNat? ⟨['0'], none⟩ = some 0 := by decide
    have begunBehind : BeginsRule (headingLexemes name text (.keyword .salience :: sign ++ [_])) :=
      begins_heading (derives zero)
    rw [← headingLexemes_append] at begunBehind
    exact begunBehind.of_append
  have ends : EndsInSalience (headingLexemes name text (.keyword .salience :: sign)) :=
    ⟨name, text, sign, isSign, rfl⟩
  refine Reads.single (takesOne_salienceDigits.map signed) (blames_salienceCause begun ends) ?_
  intro lexeme result found
  obtain ⟨n, isWhole, rfl⟩ := Option.map_eq_some_iff.1 found
  obtain ⟨numeral, rfl, whole⟩ := wholeOf?_eq_some isWhole
  exact ⟨_, derives whole, headingLexemes_append name text (.keyword .salience :: sign) _⟩

private theorem salience_positive {place : Position} {rest : List Token}
    (noMinus : next? rest ≠ some (.symbol .minus)) :
    salience finish (⟨.keyword .salience, place⟩ :: rest) =
      (salienceDigits finish rest).map fun (n, behind) => ((n : Int), behind) := by
  rw [salience]
  rintro signPlace behind rfl
  exact noMinus rfl

private theorem salience_omitted (noSalience : next? tokens ≠ some (.keyword .salience)) :
    salience finish tokens = .ok (0, tokens) := by
  rw [salience.eq_def]
  split
  · exact absurd rfl noSalience
  · exact absurd rfl noSalience
  · rfl

private theorem reads_salience :
    Reads finish (WritesSalience name text) (headingLexemes name text []) (salience finish)
      tokens := by
  by_cases isSalience : next? tokens = some (.keyword .salience)
  · obtain ⟨place, rest, rfl⟩ := exists_of_next?_eq_some isSalience
    by_cases isMinus : next? rest = some (.symbol .minus)
    · obtain ⟨signPlace, behind, rfl⟩ := exists_of_next?_eq_some isMinus
      refine Reads.after [⟨.keyword .salience, place⟩, ⟨.symbol .minus, signPlace⟩]
        (fun other _ => rfl) ?_
      rw [headingLexemes_append]
      exact reads_salienceDigits (.inr rfl) (fun n => -(n : Int)) .negative
    · refine Reads.after [⟨.keyword .salience, place⟩]
        (fun other same => salience_positive (next?_congr same ▸ isMinus)) ?_
      rw [headingLexemes_append]
      exact reads_salienceDigits (.inl rfl) (fun n => (n : Int)) .positive
  · refine .of_ok 0 (fun other same => salience_omitted (next?_congr same ▸ isSalience)) ?_
    exact ⟨[], .omitted, List.append_nil _⟩

private theorem reads_description (finish : Position) (name : String) (tokens : List Token) :
    Reads finish (fun whole text => whole = headingLexemes name text [])
      (headingLexemes name none []) (fun tokens => .ok (description tokens)) tokens := by
  by_cases isText : ∃ text, next? tokens = some (.string text)
  · obtain ⟨text, stands⟩ := isText
    obtain ⟨place, rest, rfl⟩ := exists_of_next?_eq_some stands
    exact .takes [⟨.string text, place⟩] rest (some text) rfl rfl fun other _ => rfl
  · have noText : ∀ text, next? tokens ≠ some (.string text) := not_exists.1 isText
    refine .of_ok none ?_ rfl
    intro other same
    rw [description_omitted fun text => next?_congr same ▸ noText text]

end Heading

/-! ## The condition -/

section Condition

variable {name : String} {text : Option Quotable} {salienceLexemes : List Lexeme} {n : Int}

def conditionBehind (finish : Position) (name : String) (e : Expr) : Reader Expr :=
  fun rest =>
    if nextIs .assign rest then .error ⟨.assignmentInCondition, here finish rest⟩
    else (keyword finish .thenWord (.thenKeyword name) rest).map fun behind => (e, behind)

theorem condition_eq (finish : Position) (name : String) (tokens : List Token) :
    condition finish name tokens =
      keyword finish .whenWord (.whenKeyword name) tokens >>= fun inner =>
        outcome (expression finish leastPrecedence inner) >>= fun (e, rest) =>
          conditionBehind finish name e rest := by
  rw [condition]
  cases keyword finish .whenWord (.whenKeyword name) tokens with
  | error fault => rfl
  | ok inner =>
      simp only [bind, Except.bind]
      cases expression finish leastPrecedence inner with
      | error fault => rfl
      | ok parsed =>
          obtain ⟨e, rest, fewer⟩ := parsed
          simp only [outcome, Except.map, conditionBehind]

def WritesCondition (name : String) (text : Option Quotable) (n : Int) (whole : List Lexeme)
    (e : Expr) : Prop :=
  DerivesOpening whole ⟨name, n, e, [], text⟩

private theorem reads_conditionBehind (derivesSalience : DerivesSalience salienceLexemes n)
    {written : List Lexeme} {e : Expr} (derivation : Derives leastPrecedence written e) :
    Reads finish (WritesCondition name text n)
      (headingLexemes name text salienceLexemes ++ [.symbol .openBrace] ++ [.keyword .whenWord] ++
        written)
      (conditionBehind finish name e) tokens := by
  have begun : BeginsRule (headingLexemes name text salienceLexemes ++ [.symbol .openBrace] ++
      [.keyword .whenWord] ++ written) := (admitsCondition derivesSalience).behind derivation
  have nextIs_congr (other : List Token) (same : other.head? = tokens.head?) :
      nextIs .assign other = nextIs .assign tokens := by
    rw [nextIs, nextIs, next?_congr same]
  cases isAssign : nextIs .assign tokens with
  | true =>
      have stopped (other : List Token) (same : other.head? = tokens.head?) :
          conditionBehind finish name e other =
            .error ⟨.assignmentInCondition, here finish tokens⟩ := by
        rw [conditionBehind, nextIs_congr other same, if_pos isAssign, here_congr finish same]
      exact .of_error stopped (blames_next begun Cause.noConfusion rfl rfl)
  | false =>
      have closes : Reads finish (WritesCondition name text n)
          (headingLexemes name text salienceLexemes ++ [.symbol .openBrace] ++
            [.keyword .whenWord] ++ written)
          (fun rest => (keyword finish .thenWord (.thenKeyword name) rest).map
            fun behind => (e, behind)) tokens := by
        refine Reads.closing (expects_keyword finish .thenWord (.thenKeyword name)) e begun ?_
        have opening : DerivesOpening _ ⟨name, n, e, [], text⟩ :=
          .intro derivesSalience derivation .nil
        simpa [WritesCondition] using opening
      refine closes.congr fun other same => if_neg ?_
      rw [nextIs_congr other same, isAssign]
      exact Bool.false_ne_true

private theorem reads_condition (derivesSalience : DerivesSalience salienceLexemes n) :
    Reads finish (WritesCondition name text n)
      (headingLexemes name text salienceLexemes ++ [.symbol .openBrace]) (condition finish name)
      tokens := by
  have admits : AdmitsExpression (headingLexemes name text salienceLexemes ++
      [.symbol .openBrace] ++ [.keyword .whenWord]) := admitsCondition derivesSalience
  refine Reads.congr ?_ fun other _ => condition_eq finish name other
  refine Reads.expect (expects_keyword finish .whenWord (.whenKeyword name))
    admits.begins.of_append ?_
  intro rest
  refine Reads.bind (conditionBehind finish name) (exact_expression admits) ?_
  intro first last e _ derivation
  exact reads_conditionBehind derivesSalience derivation

end Condition

/-! ## Whole rules -/

section Whole

/-- What is read behind the condition of a rule, given the rule without its actions. -/
def behindCondition (finish : Position) (opened : Rule) : Reader Rule :=
  fun tokens => actions finish opened.name tokens >>= fun (es, rest) =>
    if es.isEmpty then .error ⟨.noActions opened.name, here finish rest⟩
    else .ok ({ opened with actions := es }, rest.tail)

def behindSalience (finish : Position) (name : String) (text : Option Quotable) (n : Int) :
    Reader Rule :=
  fun tokens => symbol finish .openBrace (.opening name) tokens >>= fun inner =>
    condition finish name inner >>= fun (e, rest) =>
      behindCondition finish ⟨name, n, e, [], text⟩ rest

def behindDescription (finish : Position) (name : String) (text : Option Quotable) : Reader Rule :=
  fun tokens => salience finish tokens >>= fun (n, rest) => behindSalience finish name text n rest

def behindName (finish : Position) (name : String) : Reader Rule :=
  fun tokens => Except.ok (description tokens) >>= fun (text, rest) =>
    behindDescription finish name text rest

theorem rule_eq (finish : Position) (tokens : List Token) :
    rule finish tokens =
      keyword finish .rule .ruleKeyword tokens >>= fun inner =>
        ruleName finish inner >>= fun (name, rest) => behindName finish name rest :=
  rfl

private theorem reads_behindCondition {opened : Rule} (opening : DerivesOpening past opened)
    (noneBefore : opened.actions = []) :
    Reads finish DerivesRule past (behindCondition finish opened) tokens := by
  refine Reads.bind
    (fun es rest => if es.isEmpty then .error ⟨.noActions opened.name, here finish rest⟩
      else .ok ({ opened with actions := es }, rest.tail))
    (reads_actions opened.name opening) ?_
  rintro first rest es _ ⟨longer, closes⟩
  have isExtended : extended opened es = { opened with actions := es } := by
    rw [extended, noneBefore, List.nil_append]
  rw [isExtended] at longer
  cases es with
  | nil =>
      have stopped (other : List Token) (same : other.head? = rest.head?) :
          Except.error ⟨.noActions opened.name, here finish other⟩ =
            (Except.error ⟨.noActions opened.name, here finish rest⟩ :
              Except Fault (Rule × List Token)) := by
        rw [here_congr finish same]
      exact .of_error stopped (blames_next longer.begins Cause.noConfusion rfl rfl)
  | cons e others =>
      obtain ⟨place, last, rfl⟩ := exists_of_next?_eq_some closes
      exact .takes [⟨.symbol .closeBrace, place⟩] last { opened with actions := e :: others } rfl
        (longer.close (by simp)) fun other _ => rfl

private theorem reads_behindSalience {name : String} {text : Option Quotable}
    {salienceLexemes : List Lexeme} {n : Int}
    (derivesSalience : DerivesSalience salienceLexemes n) :
    Reads finish DerivesRule (headingLexemes name text salienceLexemes)
      (behindSalience finish name text n) tokens := by
  refine Reads.expect (expects_symbol finish .openBrace (.opening name))
    (begins_heading derivesSalience) ?_
  intro rest
  refine Reads.bind (fun e => behindCondition finish ⟨name, n, e, [], text⟩)
    (reads_condition derivesSalience) ?_
  intro first last e _ opening
  exact reads_behindCondition opening rfl

private theorem reads_behindDescription {name : String} {text : Option Quotable} :
    Reads finish DerivesRule (headingLexemes name text []) (behindDescription finish name text)
      tokens := by
  refine Reads.bind (behindSalience finish name text) reads_salience ?_
  rintro first rest n _ ⟨salienceLexemes, derivesSalience, whole⟩
  rw [whole]
  exact reads_behindSalience derivesSalience

private theorem reads_behindName {name : String} :
    Reads finish DerivesRule (headingLexemes name none []) (behindName finish name) tokens := by
  refine Reads.bind (behindDescription finish name) (reads_description finish name tokens) ?_
  intro first rest text _ whole
  rw [whole]
  exact reads_behindDescription

/-- The reader of rules takes the derivable rules exactly. -/
theorem reads_rule : Reads finish DerivesRule [] (rule finish) tokens := by
  refine Reads.congr ?_ fun other _ => rule_eq finish other
  refine Reads.expect (expects_keyword finish .rule .ruleKeyword) begins_ruleKeyword.of_append ?_
  intro rest
  refine Reads.bind (behindName finish) reads_ruleName ?_
  intro first last name _ whole
  rw [whole]
  exact reads_behindName

def atEnd (rule : Rule) : Reader Rule
  | [] => .ok (rule, [])
  | token :: _ => .error ⟨.afterRule rule.name token.lexeme, token.place⟩

abbrev wholeReader (finish : Position) : Reader Rule :=
  fun tokens => (wholeRule finish tokens).map fun r => (r, [])

theorem wholeReader_eq (finish : Position) (tokens : List Token) :
    wholeReader finish tokens = rule finish tokens >>= fun (r, rest) => atEnd r rest := by
  rw [wholeReader, wholeRule]
  cases rule finish tokens with
  | error fault => rfl
  | ok taken =>
      obtain ⟨r, rest⟩ := taken
      cases rest <;> rfl

theorem exact_wholeRule (finish : Position) (tokens : List Token) :
    ExactOn (fun first rest r => DerivesRule (lexemes first) r ∧ rest = []) (Blames finish [])
      (wholeReader finish) tokens := by
  refine ExactOn.congr ?_ fun other _ => wholeReader_eq finish other
  refine ExactOn.bind atEnd reads_rule (fun _ _ _ => id) ?_
  intro first rest r _ derivation
  cases rest with
  | nil =>
      refine .of_ok r ?_ ⟨by simpa using derivation, rfl⟩
      intro other same
      rw [List.head?_eq_none_iff.1 same]
      rfl
  | cons token others =>
      have stopped (other : List Token) (same : other.head? = (token :: others).head?) :
          atEnd r other = .error ⟨.afterRule r.name token.lexeme, token.place⟩ := by
        obtain ⟨behind, rfl⟩ := List.head?_eq_some_iff.1 same
        rfl
      have begun : BeginsRule (lexemes first) := derivation.begins
      exact .of_error stopped (.next (by simpa using begun) Cause.noConfusion rfl rfl)

end Whole

end Rulebook.Grammar
