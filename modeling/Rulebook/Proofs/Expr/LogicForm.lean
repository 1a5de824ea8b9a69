import Rulebook.Proofs.Rule.PlainForm

/-!
# Data that are read as expressions

Data that are read as expressions. The plain form of what is read is the datum itself, but for
integers, which are read as floating-point numbers, and for the arguments of fields, of elements and
of assignments: they are taken from any datum that has two members or keys, and those behind the
second are not looked at.
-/

namespace Rulebook

namespace Plain

mutual

/-- A datum with the floating-point numbers that its integers are read as. -/
def withReals : Plain → Plain
  | integer n =>
    match Number.ofInt? n with
    | some x => real x
    | Option.none => integer n
  | list items => list (itemsWithReals items)
  | tuple items => tuple (itemsWithReals items)
  | mapping entries => mapping (entriesWithReals entries)
  | datum => datum

/-- Data with the floating-point numbers that their integers are read as. -/
def itemsWithReals : List Plain → List Plain
  | [] => []
  | item :: items => item.withReals :: itemsWithReals items

/-- Entries whose data have the floating-point numbers that their integers are read as. -/
def entriesWithReals : List (Plain × Plain) → List (Plain × Plain)
  | [] => []
  | (key, datum) :: entries => (key, datum.withReals) :: entriesWithReals entries

end

/-- What arguments are taken from, as a list of the first two; what has no two arguments stays. -/
def firstTwo (arguments : Plain) : Plain :=
  match Expr.argument 0 arguments, Expr.argument 1 arguments with
  | .ok first, .ok second => list [first, second]
  | _, _ => arguments

mutual

/-- A datum with lists of two arguments in place of longer ones, of tuples, of mappings with the keys
zero and one, and of bytes. -/
def trimmed : Plain → Plain
  | list items => firstTwo (list (trimmedItems items))
  | tuple items => firstTwo (tuple (trimmedItems items))
  | mapping entries => firstTwo (mapping (trimmedEntries entries))
  | foreign (.bytes data) => firstTwo (foreign (.bytes data))
  | datum => datum

/-- Data with their arguments trimmed. -/
def trimmedItems : List Plain → List Plain
  | [] => []
  | item :: items => item.trimmed :: trimmedItems items

/-- Entries whose data have their arguments trimmed. -/
def trimmedEntries : List (Plain × Plain) → List (Plain × Plain)
  | [] => []
  | (key, datum) :: entries => (key, datum.trimmed) :: trimmedEntries entries

end

theorem itemsWithReals_eq (items : List Plain) : itemsWithReals items = items.map withReals := by
  induction items with
  | nil => rfl
  | cons item items inductionHypothesis =>
      rw [itemsWithReals, inductionHypothesis, List.map_cons]

theorem trimmedItems_eq (items : List Plain) : trimmedItems items = items.map trimmed := by
  induction items with
  | nil => rfl
  | cons item items inductionHypothesis =>
      rw [trimmedItems, inductionHypothesis, List.map_cons]

private theorem findKey?_trimmedEntries (key : Plain) (entries : List (Plain × Plain)) :
    findKey? key (trimmedEntries entries) = (findKey? key entries).map trimmed := by
  induction entries with
  | nil => rfl
  | cons entry entries inductionHypothesis =>
      obtain ⟨other, datum⟩ := entry
      rw [trimmedEntries, findKey?, findKey?, List.find?_cons, List.find?_cons]
      cases sameKey other key with
      | true => rfl
      | false => exact inductionHypothesis

theorem firstTwo_eq {arguments first second : Plain}
    (isFirst : Expr.argument 0 arguments = .ok first)
    (isSecond : Expr.argument 1 arguments = .ok second) :
    arguments.firstTwo = list [first, second] := by
  rw [firstTwo, isFirst, isSecond]

theorem firstTwo_cases (arguments : Plain) :
    arguments.firstTwo = arguments ∨ ∃ items, arguments.firstTwo = list items := by
  rw [firstTwo]
  split
  · exact .inr ⟨_, rfl⟩
  · exact .inl rfl

theorem firstTwo_list (items : List Plain) : (list items).firstTwo = list (items.take 2) := by
  match items with
  | [] | [_] | _ :: _ :: _ => rfl

mutual

/-- Trimming a datum takes nothing from it only where it changes nothing. -/
theorem trimmed_eq_self {datum : Plain} (same : datum.trimmed.withReals = datum.withReals) :
    datum.trimmed = datum := by
  cases datum with
  | list items =>
      rw [trimmed, firstTwo_list, withReals, withReals, list.injEq] at same
      have few : (trimmedItems items).take 2 = trimmedItems items := by
        have lengths := congrArg List.length same
        simp only [itemsWithReals_eq, trimmedItems_eq, List.length_map, List.length_take] at lengths
        rw [trimmedItems_eq]
        exact List.take_of_length_le (by rw [List.length_map]; omega)
      rw [few] at same
      rw [trimmed, firstTwo_list, few, trimmedItems_eq_self same]
  | tuple items =>
      rw [trimmed] at same ⊢
      rcases firstTwo_cases (tuple (trimmedItems items)) with unchanged | ⟨others, isList⟩
      · rw [unchanged, withReals, withReals, tuple.injEq] at same
        rw [unchanged, trimmedItems_eq_self same]
      · rw [isList] at same
        cases same
  | mapping entries =>
      rw [trimmed] at same ⊢
      rcases firstTwo_cases (mapping (trimmedEntries entries)) with unchanged | ⟨others, isList⟩
      · rw [unchanged, withReals, withReals, mapping.injEq] at same
        rw [unchanged, trimmedEntries_eq_self same]
      · rw [isList] at same
        cases same
  | foreign datum =>
      cases datum with
      | bytes data =>
          rw [trimmed] at same ⊢
          rcases firstTwo_cases (foreign (.bytes data)) with unchanged | ⟨others, isList⟩
          · exact unchanged
          · rw [isList] at same
            cases same
      | _ => rfl
  | _ => rfl

theorem trimmedItems_eq_self {items : List Plain}
    (same : itemsWithReals (trimmedItems items) = itemsWithReals items) :
    trimmedItems items = items := by
  cases items with
  | nil => rfl
  | cons item items =>
      rw [trimmedItems, itemsWithReals, itemsWithReals, List.cons.injEq] at same
      rw [trimmedItems, trimmed_eq_self same.1, trimmedItems_eq_self same.2]

theorem trimmedEntries_eq_self {entries : List (Plain × Plain)}
    (same : entriesWithReals (trimmedEntries entries) = entriesWithReals entries) :
    trimmedEntries entries = entries := by
  match entries with
  | [] => rfl
  | (key, datum) :: entries =>
      rw [trimmedEntries, entriesWithReals, entriesWithReals, List.cons.injEq, Prod.mk.injEq] at same
      rw [trimmedEntries, trimmed_eq_self same.1.2, trimmedEntries_eq_self same.2]

end

/-- What two arguments are taken from is trimmed to a list of the two, unless they are characters. -/
theorem trimmed_of_arguments {arguments first second : Plain} {e : Expr}
    (isFirst : Expr.argument 0 arguments = .ok first)
    (isSecond : Expr.argument 1 arguments = .ok second) (isRead : Expr.ofLogic first = .ok e) :
    arguments.trimmed = list [first.trimmed, second.trimmed] := by
  have trimmedAt {place : Nat} {items : List Plain} {datum : Plain} {fault : Expr.LogicFault}
      (read : Expr.found fault items[place]? = .ok datum) :
      Expr.found fault (trimmedItems items)[place]? = .ok datum.trimmed := by
    rw [Expr.found_eq_ok_iff] at read ⊢
    rw [trimmedItems_eq, List.getElem?_map, read, Option.map_some]
  have trimmedUnder {place : Nat} {entries : List (Plain × Plain)} {datum : Plain}
      {fault : Expr.LogicFault}
      (read : Expr.found fault (findKey? (.integer place) entries) = .ok datum) :
      Expr.found fault (findKey? (.integer place) (trimmedEntries entries)) =
        .ok datum.trimmed := by
    rw [Expr.found_eq_ok_iff] at read ⊢
    rw [findKey?_trimmedEntries, read, Option.map_some]
  rcases Expr.argument_cases isFirst with
    ⟨items, rfl | rfl, -⟩ | ⟨entries, rfl, -⟩ | ⟨data, n, rfl, rfl⟩ | isInvalid
  · exact firstTwo_eq (trimmedAt isFirst) (trimmedAt isSecond)
  · exact firstTwo_eq (trimmedAt isFirst) (trimmedAt isSecond)
  · exact firstTwo_eq (trimmedUnder isFirst) (trimmedUnder isSecond)
  · obtain ⟨m, rfl⟩ := Expr.argument_bytes isSecond
    exact firstTwo_eq isFirst isSecond
  · rw [isInvalid] at isRead
    cases isRead

end Plain

theorem BinaryOp.sign_of_ofSign? {sign : String} {op : BinaryOp}
    (found : BinaryOp.ofSign? sign = some op) : op.sign = sign := by
  have isSign := List.find?_some found
  exact beq_iff_eq.1 isSign

namespace Expr

open Text (Quotable)

/-! ## What is read as an expression -/

/-- `IsLogic datum e` means that a datum is read as an expression. -/
inductive IsLogic : Plain → Expr → Prop
  | integer {n : Int} {x : Float} :
      Number.ofInt? n = some x →
      IsLogic (.integer n) (.number x)
  | real (x : Float) :
      IsLogic (.real x) (.number x)
  | bool (holds : Bool) :
      IsLogic (.bool holds) (.bool holds)
  | null :
      IsLogic .none .null
  | string (text : Quotable) :
      IsLogic (applied "str" (.text text.text)) (.string text)
  | fact (name : String) :
      IsLogic (applied "var" (.text name)) (.fact name)
  | field {arguments base : Plain} {name : String} {e : Expr} :
      argument 0 arguments = .ok base →
      argument 1 arguments = .ok (.text name) →
      IsLogic base e →
      IsLogic (applied "field" arguments) (.field e name)
  | element {arguments base index : Plain} {e inner : Expr} :
      argument 0 arguments = .ok base →
      argument 1 arguments = .ok index →
      IsLogic base e →
      IsLogic index inner →
      IsLogic (applied "index" arguments) (.element e inner)
  | binary (op : BinaryOp) {left right : Plain} {leftExpr rightExpr : Expr} :
      IsLogic left leftExpr →
      IsLogic right rightExpr →
      IsLogic (applied op.sign (.list [left, right])) (.binary op leftExpr rightExpr)
  | unary (op : UnaryOp) {operand : Plain} {e : Expr} :
      IsLogic operand e →
      IsLogic (applied (unaryKey op) operand) (.unary op e)
  | assign {arguments target value : Plain} {e inner : Expr} :
      argument 0 arguments = .ok target →
      argument 1 arguments = .ok value →
      IsLogic target e →
      IsLogic value inner →
      IsLogic (applied "set" arguments) (.assign e inner)

private theorem text_of_quotable {text : String} {found : Quotable} (read : quotable text = .ok found) :
    found.text = text := by
  rw [quotable, Quotable.of?] at read
  split at read
  · next isQuotable =>
      split at isQuotable <;> cases isQuotable
      cases read
      rfl
  · cases read

section Arguments

variable {place : Nat} {arguments datum : Plain} {name : String} {e : Expr}

theorem nameArgument_eq_ok_iff :
    nameArgument place arguments = .ok name ↔ argument place arguments = .ok (.text name) := by
  rw [nameArgument]
  constructor
  · intro read
    split at read
    · next other found =>
        cases read
        exact found
    · cases read
    · cases read
  · intro found
    rw [found]

theorem ofArgument_eq_ok_iff :
    ofArgument place arguments = .ok e ↔
      ∃ datum, argument place arguments = .ok datum ∧ ofLogic datum = .ok e := by
  rw [ofArgument_eq, bind_eq_ok_iff]

/-- An argument that is an expression is part of what it is taken from, or an integer. -/
theorem sizeOf_argument (found : argument place arguments = .ok datum)
    (isRead : ofLogic datum = .ok e) :
    sizeOf datum ≤ sizeOf arguments ∨ ∃ n, datum = .integer n := by
  rcases argument_cases found with
    ⟨items, isItems, isItem⟩ | ⟨entries, rfl, isEntry⟩ | ⟨-, n, -, rfl⟩ | isInvalid
  · have smaller := List.sizeOf_lt_of_mem (List.mem_of_getElem? isItem)
    rcases isItems with rfl | rfl <;> left <;> simp <;> omega
  · obtain ⟨⟨key, other⟩, isFound, rfl⟩ := Option.map_eq_some_iff.1 isEntry
    have smaller := List.sizeOf_lt_of_mem (List.mem_of_find?_eq_some isFound)
    left
    simp at smaller ⊢
    omega
  · exact .inr ⟨n, rfl⟩
  · rw [isInvalid] at isRead
    cases isRead

/-- What is read from two arguments comes from the first two. -/
theorem exists_of_twoArguments {make : Expr → Expr → Expr}
    (read : (ofArgument 0 arguments >>= fun left =>
      ofArgument 1 arguments >>= fun right => .ok (make left right)) = .ok e) :
    ∃ first second left right, argument 0 arguments = .ok first ∧
      argument 1 arguments = .ok second ∧ ofLogic first = .ok left ∧ ofLogic second = .ok right ∧
      make left right = e := by
  obtain ⟨left, readLeft, later⟩ := bind_eq_ok_iff.1 read
  obtain ⟨right, readRight, isMade⟩ := bind_eq_ok_iff.1 later
  obtain ⟨first, isFirst, readFirst⟩ := ofArgument_eq_ok_iff.1 readLeft
  obtain ⟨second, isSecond, readSecond⟩ := ofArgument_eq_ok_iff.1 readRight
  exact ⟨first, second, left, right, isFirst, isSecond, readFirst, readSecond,
    Except.ok.inj isMade⟩

theorem isLogic_of_ofInteger {n : Int} (read : ofInteger n = .ok e) : IsLogic (.integer n) e := by
  rw [ofInteger] at read
  split at read
  · next x isReal =>
      cases read
      exact .integer isReal
  · cases read

end Arguments

/-- What is read under a key is an expression, given that of what is read from parts of its argument
this is known. -/
theorem isLogic_applied {key : String} {argument : Plain} {e : Expr}
    (ofPart : ∀ part inner, sizeOf part ≤ sizeOf argument → ofLogic part = .ok inner →
      IsLogic part inner)
    (read : ofLogic (applied key argument) = .ok e) : IsLogic (applied key argument) e := by
  have ofFound {place : Nat} {part : Plain} {inner : Expr}
      (found : Expr.argument place argument = .ok part) (readPart : ofLogic part = .ok inner) :
      IsLogic part inner := by
    rcases sizeOf_argument found readPart with smaller | ⟨n, rfl⟩
    · exact ofPart part inner smaller readPart
    · exact isLogic_of_ofInteger readPart
  rw [applied, ofLogic.eq_def] at read
  dsimp only at read
  -- the cases are the keys in the order in which they are tried, the signs of operators last
  split at read
  case h_1 =>
    split at read
    · next text =>
        obtain ⟨found, isQuotable, rfl⟩ := exists_of_map_eq_ok read
        rw [← text_of_quotable isQuotable]
        exact .string found
    · cases read
  case h_2 =>
    split at read
    · next name =>
        cases read
        exact .fact name
    · cases read
  case h_3 =>
    obtain ⟨base, readBase, later⟩ := bind_eq_ok_iff.1 read
    obtain ⟨name, readName, isField⟩ := bind_eq_ok_iff.1 later
    obtain ⟨first, isFirst, readFirst⟩ := ofArgument_eq_ok_iff.1 readBase
    cases isField
    exact .field isFirst (nameArgument_eq_ok_iff.1 readName) (ofFound isFirst readFirst)
  case h_4 =>
    obtain ⟨first, second, base, index, isFirst, isSecond, readBase, readIndex, rfl⟩ :=
      exists_of_twoArguments read
    exact .element isFirst isSecond (ofFound isFirst readBase) (ofFound isSecond readIndex)
  case h_5 =>
    obtain ⟨operand, readOperand, rfl⟩ := exists_of_map_eq_ok read
    exact .unary .not (ofPart _ _ (Nat.le_refl _) readOperand)
  case h_6 =>
    obtain ⟨operand, readOperand, rfl⟩ := exists_of_map_eq_ok read
    exact .unary .negate (ofPart _ _ (Nat.le_refl _) readOperand)
  case h_7 =>
    obtain ⟨first, second, target, value, isFirst, isSecond, readTarget, readValue, rfl⟩ :=
      exists_of_twoArguments read
    exact .assign isFirst isSecond (ofFound isFirst readTarget) (ofFound isSecond readValue)
  case h_8 =>
    split at read
    · cases read
    · next op isSign =>
        split at read
        · next left right =>
            have isLeft : Expr.argument 0 (.list [left, right]) = .ok left := rfl
            have isRight : Expr.argument 1 (.list [left, right]) = .ok right := rfl
            obtain ⟨leftExpr, readLeft, later⟩ := bind_eq_ok_iff.1 read
            obtain ⟨rightExpr, readRight, isBinary⟩ := bind_eq_ok_iff.1 later
            cases isBinary
            rw [← BinaryOp.sign_of_ofSign? isSign]
            exact .binary op (ofFound isLeft readLeft) (ofFound isRight readRight)
        · cases read

/-- What is read as an expression is one of the accepted forms. -/
theorem isLogic_of_ofLogic {datum : Plain} {e : Expr} (read : ofLogic datum = .ok e) :
    IsLogic datum e := by
  have readWhole := read
  rw [ofLogic.eq_def] at read
  split at read
  case h_1 holds =>
    cases read
    exact .bool holds
  case h_2 =>
    cases read
    exact .null
  case h_3 n => exact isLogic_of_ofInteger read
  case h_4 x =>
    cases read
    exact .real x
  case h_5 key argument =>
    -- what stands under the key is smaller than the mapping
    refine isLogic_applied (fun part inner smaller readPart => ?_) readWhole
    exact isLogic_of_ofLogic readPart
  case h_6 => cases read
  case h_7 => cases read
termination_by sizeOf datum
decreasing_by
  subst_vars
  simp only [Plain.mapping.sizeOf_spec, List.cons.sizeOf_spec, Prod.mk.sizeOf_spec]
  omega

/-- Each accepted form is read. -/
theorem IsLogic.ofLogic {datum : Plain} {e : Expr} (isLogic : IsLogic datum e) :
    ofLogic datum = .ok e := by
  induction isLogic with
  | integer isReal => rw [Expr.ofLogic, ofInteger, isReal]
  | real x | bool holds | null | fact name => rfl
  | string text => exact ofLogic_toLogic (.string text)
  | field isBase isName _ baseHypothesis =>
      rw [applied, Expr.ofLogic, ofArgument_of_argument isBase, nameArgument_eq_ok_iff.2 isName,
        baseHypothesis]
      rfl
  | element isBase isIndex _ _ baseHypothesis indexHypothesis =>
      rw [applied, Expr.ofLogic, ofArgument_of_argument isBase, ofArgument_of_argument isIndex,
        baseHypothesis, indexHypothesis]
      rfl
  | binary op _ _ leftHypothesis rightHypothesis =>
      rw [ofLogic_applied_sign, leftHypothesis, rightHypothesis]
      rfl
  | unary op _ operandHypothesis =>
      rw [ofLogic_applied_unaryKey, operandHypothesis]
      rfl
  | assign isTarget isValue _ _ targetHypothesis valueHypothesis =>
      rw [applied, Expr.ofLogic, ofArgument_of_argument isTarget, ofArgument_of_argument isValue,
        targetHypothesis, valueHypothesis]
      rfl

/-- The data that are read as expressions, and what they are read as. -/
theorem ofLogic_eq_ok_iff {datum : Plain} {e : Expr} :
    ofLogic datum = .ok e ↔ IsLogic datum e :=
  ⟨isLogic_of_ofLogic, IsLogic.ofLogic⟩

/-! ## The plain form of what is read -/

theorem withReals_applied (key : String) (argument : Plain) :
    (applied key argument).withReals = applied key argument.withReals := by
  simp only [applied, Plain.withReals, Plain.entriesWithReals]

theorem trimmed_applied (key : String) (argument : Plain) :
    (applied key argument).trimmed = applied key argument.trimmed :=
  rfl

/-- An accepted form comes back with arguments that are too many left out, and with all its numbers
as real ones. -/
theorem IsLogic.toLogic_eq {datum : Plain} {e : Expr} (isLogic : IsLogic datum e) :
    e.toLogic = datum.trimmed.withReals := by
  induction isLogic with
  | @integer n x isReal =>
      have unchanged : (Plain.integer n).trimmed = .integer n := rfl
      rw [unchanged, Plain.withReals, isReal]
      rfl
  | real x | bool holds | null => rfl
  | string text | fact name => rfl
  | field isBase isName logicBase baseHypothesis =>
      rw [trimmed_applied, withReals_applied,
        Plain.trimmed_of_arguments isBase isName logicBase.ofLogic, toLogic, baseHypothesis]
      simp only [Plain.withReals, Plain.itemsWithReals, Plain.trimmed]
  | element isBase isIndex logicBase _ baseHypothesis indexHypothesis =>
      rw [trimmed_applied, withReals_applied,
        Plain.trimmed_of_arguments isBase isIndex logicBase.ofLogic, toLogic, baseHypothesis,
        indexHypothesis]
      simp only [Plain.withReals, Plain.itemsWithReals]
  | @binary op left right _ _ logicLeft _ leftHypothesis rightHypothesis =>
      have isLeft : argument 0 (.list [left, right]) = .ok left := rfl
      have isRight : argument 1 (.list [left, right]) = .ok right := rfl
      rw [trimmed_applied, withReals_applied,
        Plain.trimmed_of_arguments isLeft isRight logicLeft.ofLogic, toLogic, leftHypothesis,
        rightHypothesis]
      simp only [Plain.withReals, Plain.itemsWithReals]
  | unary op _ operandHypothesis =>
      rw [trimmed_applied, withReals_applied, toLogic, operandHypothesis]
  | assign isTarget isValue logicTarget _ targetHypothesis valueHypothesis =>
      rw [trimmed_applied, withReals_applied,
        Plain.trimmed_of_arguments isTarget isValue logicTarget.ofLogic, toLogic,
        targetHypothesis, valueHypothesis]
      simp only [Plain.withReals, Plain.itemsWithReals]

/-- The plain form of what a datum is read as is the datum, with floating-point numbers in place of
integers, and with lists of two arguments in place of all else that arguments are taken from. So it
is the datum but for the integers just where all arguments stand in lists of two. -/
theorem toLogic_of_ofLogic {datum : Plain} {e : Expr} (read : ofLogic datum = .ok e) :
    e.toLogic = datum.trimmed.withReals ∧
      (e.toLogic = datum.withReals ↔ datum.trimmed = datum) := by
  have trimmedForm := (isLogic_of_ofLogic read).toLogic_eq
  refine ⟨trimmedForm, ?_⟩
  rw [trimmedForm]
  constructor
  · exact Plain.trimmed_eq_self
  · intro unchanged
    rw [unchanged]

/-- A field with a third argument, which is an integer. -/
def overlong : Plain :=
  applied "field" (.list [applied "var" (.text "x"), .text "f", .integer 1])

theorem ofLogic_overlong : ofLogic overlong = .ok (.field (.fact "x") "f") :=
  rfl

theorem toLogic_of_ofLogic_overlong :
    ofLogic overlong = .ok (.field (.fact "x") "f") ∧
      (field (.fact "x") "f").toLogic = overlong.trimmed.withReals ∧
      ((field (.fact "x") "f").toLogic = overlong.withReals ↔ overlong.trimmed = overlong) :=
  ⟨ofLogic_overlong, toLogic_of_ofLogic ofLogic_overlong⟩

example :
    ofLogic (applied "field"
      (.mapping [(.integer 1, .text "f"), (.bool false, applied "var" (.text "x"))])) =
      .ok (.field (.fact "x") "f") :=
  rfl

/-- The third argument of a field is lost. -/
theorem not_all_kept :
    ¬ ∀ (datum : Plain) (e : Expr), ofLogic datum = .ok e → e.toLogic = datum.withReals := by
  intro allKept
  have same := allKept overlong _ ofLogic_overlong
  rw [overlong, withReals_applied, toLogic] at same
  simp [applied, Plain.withReals, Plain.itemsWithReals] at same

end Expr

end Rulebook
