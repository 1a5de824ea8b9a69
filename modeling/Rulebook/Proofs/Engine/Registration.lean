import Rulebook.Proofs.Engine.Failures
import Rulebook.Proofs.Engine.Rest
import Rulebook.Proofs.RuleBase.Entries

/-!
# Documents that an engine takes up

How an engine takes up the rules of a document. A document with a fault in it is refused as a whole,
and so is any document during a run. Otherwise its rules are added one after another, and a rule
whose name is taken stops this where it stands: the rules in front of it stay with the engine.
-/

namespace Rulebook

namespace Engine

variable {engine after : Engine} {rule : Rule} {rules : List Rule}

/-! ## Rules that are taken up -/

/-- `Registered engine rules after` means that an engine took rules up, one after another, and that
nothing else has become of it. A name that is new comes behind those that were there, under each name
is the last of the rules that has it, and the attempts of all these rules are forgotten. -/
structure Registered (engine : Engine) (rules : List Rule) (after : Engine) : Prop where
  settings : after.settings = engine.settings
  phase : after.phase = engine.phase
  policy : after.base.policy = engine.base.policy
  names : ruleNames after.base.rules =
    (ruleNames engine.base.rules ++ ruleNames rules).eraseDups
  latest : ∀ name, after.base.get? name =
    (rules.reverse.find? fun rule => rule.name == name).or (engine.base.get? name)
  attempts : ∀ identity name, (after.historyOf identity).get? name =
    if name ∈ ruleNames rules then none else (engine.historyOf identity).get? name
  inFull : engine.base.policy = .reject → after.base.rules = engine.base.rules ++ rules

theorem registered_nil (engine : Engine) : Registered engine [] engine where
  settings := rfl
  phase := rfl
  policy := rfl
  names := by
    have noneBehind : ruleNames engine.base.rules ++ ruleNames [] = ruleNames engine.base.rules :=
      List.append_nil _
    rw [noneBehind, eraseDups_eq_self engine.base.distinct]
  latest _ := rfl
  attempts _ _ := rfl
  inFull _ := (List.append_nil _).symm

/-- To add a rule is to take it up alone. -/
theorem registered_of_addRule (added : engine.addRule rule = .ok after) :
    Registered engine [rule] after := by
  obtain ⟨_, _, _, base, isAdded, same⟩ := addRule_eq_ok added
  subst same
  constructor
  · rfl
  · rfl
  · exact RuleBase.policy_of_add? isAdded
  · have names : ruleNames base.rules = _ := RuleBase.ruleNames_of_add? isAdded
    change ruleNames base.rules = (ruleNames engine.base.rules ++ [rule.name]).eraseDups
    split at names
    · next taken =>
        rw [eraseDups_append_of_subset (by simpa using taken), names,
          eraseDups_eq_self engine.base.distinct]
    · rw [← names, eraseDups_eq_self base.distinct]
  · intro name
    have here : base.get? name = _ := RuleBase.get?_of_add? isAdded name
    change base.get? name = ([rule].find? fun rule => rule.name == name).or _
    rw [here]
    split
    · next same => rw [List.find?_cons_of_pos (by simpa using same), Option.some_or]
    · next different =>
        rw [List.find?_cons_of_neg (by simpa using different), List.find?_nil, Option.none_or]
  · intro identity name
    rw [historyOf_forgetRule_get?]
    simp only [ruleNames, List.map_cons, List.map_nil, List.mem_singleton]
    rfl
  · intro isReject
    rcases RuleBase.rules_of_add? isAdded with ⟨_, isNew⟩ | ⟨taken, _⟩
    · exact isNew
    · rw [RuleBase.add?_eq_none_iff.2 ⟨isReject, taken⟩] at isAdded
      cases isAdded

/-- Rules are taken up by the first of them and then by the others. -/
theorem Registered.trans {middle : Engine} {before behind : List Rule}
    (first : Registered engine before middle) (second : Registered middle behind after) :
    Registered engine (before ++ behind) after := by
  constructor
  · exact second.settings.trans first.settings
  · exact second.phase.trans first.phase
  · exact second.policy.trans first.policy
  · rw [second.names, first.names, eraseDups_eraseDups_append, RuleBase.ruleNames_append,
      List.append_assoc]
  · intro name
    rw [second.latest, first.latest, List.reverse_append, List.find?_append, Option.or_assoc]
  · intro identity name
    rw [second.attempts, first.attempts, RuleBase.ruleNames_append]
    by_cases later : name ∈ ruleNames behind
    · rw [if_pos later, if_pos (List.mem_append_right _ later)]
    · rw [if_neg later]
      simp only [List.mem_append, later, or_false]
  · intro isReject
    rw [second.inFull (first.policy.trans isReject), first.inFull isReject, List.append_assoc]

/-! ## Rules that are refused -/

/-- Why an engine refuses a rule. -/
theorem addRule_eq_error {fault : Fault} (refused : engine.addRule rule = .error fault) :
    (engine.phase.isRunning = true ∧ fault = .busy .addRules) ∨
      (rule.name = "" ∧ fault = .emptyName) ∨
      (rule.condition.hasAssignment = true ∧ fault = .assignmentInCondition rule.name) ∨
      (engine.base.add? rule = none ∧ fault = .duplicateName rule.name) := by
  rw [addRule, whenIdle] at refused
  split at refused
  · next running =>
      cases refused
      exact .inl ⟨running, rfl⟩
  · rw [addIdle] at refused
    split at refused
    · next unnamed =>
        cases refused
        exact .inr (.inl ⟨String.isEmpty_iff.1 unnamed, rfl⟩)
    · split at refused
      · next assigns =>
          cases refused
          exact .inr (.inr (.inl ⟨assigns, rfl⟩))
      · split at refused
        · next isRejected =>
            cases refused
            exact .inr (.inr (.inr ⟨isRejected, rfl⟩))
        · cases refused

/-- Rules are taken up to the end, or to the first that is refused. -/
theorem addRules_cases (engine : Engine) (rules : List Rule) :
    (∃ after, engine.addRules rules = (after, .ok ()) ∧ Registered engine rules after) ∨
      ∃ before rule behind after fault, rules = before ++ rule :: behind ∧
        engine.addRules rules = (after, .error fault) ∧ Registered engine before after ∧
        after.addRule rule = .error fault := by
  induction rules generalizing engine with
  | nil => exact .inl ⟨engine, rfl, registered_nil engine⟩
  | cons rule rules inductionHypothesis =>
      rw [addRules]
      cases added : engine.addRule rule with
      | error fault =>
          exact .inr ⟨[], rule, rules, engine, fault, rfl, rfl, registered_nil engine, added⟩
      | ok middle =>
          rcases inductionHypothesis middle with
            ⟨after, isAdded, registered⟩ |
              ⟨before, refused, behind, after, fault, same, stopped, registered, isRefused⟩
          · exact .inl ⟨after, isAdded, (registered_of_addRule added).trans registered⟩
          · refine .inr ⟨rule :: before, refused, behind, after, fault, ?_, stopped,
              (registered_of_addRule added).trans registered, isRefused⟩
            rw [same, List.cons_append]

private theorem addRules_of_running (running : engine.phase.isRunning = true) (rules : List Rule) :
    engine.addRules rules =
      (engine, if rules = [] then .ok () else .error (.busy .addRules)) := by
  cases rules with
  | nil => rfl
  | cons rule rules =>
      rw [addRules, addRule, whenIdle, if_pos running]
      rfl

/-! ## Attempts of rules that an engine has -/

/-- Whether all attempts that an engine keeps are those of rules that it has. -/
def KeepsOwn (engine : Engine) : Prop :=
  ∀ identity name, name ∉ ruleNames engine.base.rules →
    (engine.historyOf identity).get? name = none

theorem KeepsOwn.addRule (keepsOwn : engine.KeepsOwn) (added : engine.addRule rule = .ok after) :
    after.KeepsOwn := by
  obtain ⟨_, _, _, base, isAdded, same⟩ := addRule_eq_ok added
  subst same
  intro identity name absent
  rw [historyOf_forgetRule_get?]
  split
  · rfl
  · apply keepsOwn identity name
    intro registered
    have names : ruleNames base.rules = _ := RuleBase.ruleNames_of_add? isAdded
    apply absent
    change name ∈ ruleNames base.rules
    rw [names]
    split
    · exact registered
    · exact List.mem_append_left _ registered

theorem KeepsOwn.removeRule {name : String} {removed? : Option Rule} (keepsOwn : engine.KeepsOwn)
    (removed : engine.removeRule name = .ok (after, removed?)) : after.KeepsOwn := by
  obtain ⟨_, _, same⟩ := removeRule_eq_ok removed
  subst same
  intro identity other absent
  rw [historyOf_forgetRule_get?]
  split
  · rfl
  · next different =>
      apply keepsOwn identity other
      intro registered
      apply absent
      change other ∈ ruleNames (engine.base.erase name).rules
      rw [RuleBase.ruleNames_erase]
      exact List.mem_filter.2 ⟨registered, by simpa using different⟩

private theorem runOn_history_of_not_mem (engine : Engine) (identity : String) (store : Store)
    {name : String} (absent : name ∉ ruleNames engine.base.rules) :
    (engine.runOn identity store).run.history.get? name =
      (engine.historyOf identity).get? name := by
  have taken := engine.turns_runOn identity store
  have inTheEnd := taken.invariant
    (p := fun reached => reached.history.get? name = (engine.historyOf identity).get? name)
    rfl fun pass rule member reached same => by
      have different : name ≠ rule.name := by
        intro isName
        have registered := engine.base.perm_bySalience.mem_iff.1 member
        exact absent (isName ▸ List.mem_map_of_mem registered)
      exact (Run.takeTurn_history_of_ne different).trans same
  exact inTheEnd.1

theorem KeepsOwn.ranOn (keepsOwn : engine.KeepsOwn) (identity : String) (store : Store) :
    (engine.ranOn identity store).KeepsOwn := by
  intro other name absent
  by_cases same : other = identity
  · rw [same, historyOf_ranOn, engine.runOn_history_of_not_mem identity store absent]
    exact keepsOwn identity name absent
  · rw [historyOf_ranOn_of_ne same]
    exact keepsOwn other name absent

/-- Every engine that was built by its own operations has histories of its own rules alone. -/
theorem Built.keepsOwn (built : engine.Built) : engine.KeepsOwn := by
  induction built with
  | new settings => exact fun _ _ _ => rfl
  | addRule _ added keepsOwn => exact keepsOwn.addRule added
  | addDocument text _ keepsOwn =>
      exact addDocument_invariant keepsOwn fun reached rule after keepsOwnHere _ added =>
        keepsOwnHere.addRule added
  | removeRule _ removed keepsOwn => exact keepsOwn.removeRule removed
  | reset _ wasReset _ =>
      obtain ⟨_, same⟩ := reset_eq_ok wasReset
      subst same
      exact fun _ _ _ => rfl
  | @execute _ _ identity store _ _ _ executed keepsOwn =>
      obtain ⟨_, same, _, _⟩ := execute_eq_ok_iff.1 executed
      subst same
      exact keepsOwn.ranOn identity store
  | @forgetStore engine identity _ keepsOwn =>
      intro other name absent
      by_cases same : other = identity
      · rw [same, historyOf_forgetStore]
        rfl
      · rw [historyOf_forgetStore_of_ne engine same]
        exact keepsOwn other name absent

/-- Under the policy that rejects, rules that are taken up are new, so that no attempt is
forgotten. -/
theorem Registered.historyOf_eq (registered : Registered engine rules after)
    (isReject : engine.base.policy = .reject) (keepsOwn : engine.KeepsOwn) (identity name : String) :
    (after.historyOf identity).get? name = (engine.historyOf identity).get? name := by
  rw [registered.attempts]
  split
  · next taken =>
      have distinct := after.base.distinct
      rw [registered.inFull isReject, RuleBase.ruleNames_append] at distinct
      have absent : name ∉ ruleNames engine.base.rules :=
        fun registeredBefore => (List.nodup_append.1 distinct).2.2 name registeredBefore name taken rfl
      exact (keepsOwn identity name absent).symm
  · rfl

/-! ## Documents -/

/-- `Documented engine text after result` lists what comes of an engine and a document. Only a rule
whose name is taken leaves the engine with some of the rules and without the others. -/
inductive Documented (engine : Engine) (text : String) :
    Engine → Except DocumentFault (List Rule) → Prop
  | malformed {fault : Grammar.Fault} :
      Rule.parseAll text = .error fault →
      fault.isSyntax = true →
      Documented engine text engine (.error (.grammar fault))
  | overlong {count : Nat} {place : Text.Position} :
      Rule.parseAll text = .error ⟨.tooManyDigits count, place⟩ →
      Documented engine text engine (.error (.grammar ⟨.tooManyDigits count, place⟩))
  | busy {rules : List Rule} :
      Rule.parseAll text = .ok rules →
      engine.phase.isRunning = true →
      Documented engine text engine (.error (.engine (.busy .addRules)))
  | taken {before behind : List Rule} {rule : Rule} {after : Engine} :
      Rule.parseAll text = .ok (before ++ rule :: behind) →
      Registered engine before after →
      after.base.rules = engine.base.rules ++ before →
      engine.base.policy = .reject →
      rule.name ∈ ruleNames after.base.rules →
      (engine.Built → ∀ identity name,
        (after.historyOf identity).get? name = (engine.historyOf identity).get? name) →
      Documented engine text after (.error (.engine (.duplicateName rule.name)))
  | added {rules : List Rule} {after : Engine} :
      Rule.parseAll text = .ok rules →
      Registered engine rules after →
      Documented engine text after (.ok rules)

section Results

variable {text : String}

private theorem addDocument_of_malformed {fault : Grammar.Fault} (read : Rule.parseAll text = .error fault) :
    engine.addDocument text = (engine, .error (.grammar fault)) := by
  rw [addDocument, read]

theorem addDocument_of_added (read : Rule.parseAll text = .ok rules)
    (isAdded : engine.addRules rules = (after, .ok ())) :
    engine.addDocument text = (after, .ok rules) := by
  simp only [addDocument, read, isAdded]

/-- The first rule that cannot be added ends the work on a document. -/
theorem addDocument_of_stopped {fault : Fault} (read : Rule.parseAll text = .ok rules)
    (stopped : engine.addRules rules = (after, .error fault)) :
    engine.addDocument text = (after, .error (.engine fault)) := by
  simp only [addDocument, read, stopped]

end Results

/-- A rule of a document is refused during a run, and where its name is taken. -/
theorem addRule_eq_error_of_parsed {text : String} {fault : Fault}
    (member : rule ∈ (Document.parse text).rules) (refused : engine.addRule rule = .error fault) :
    (engine.phase.isRunning = true ∧ fault = .busy .addRules) ∨
      (engine.base.add? rule = none ∧ fault = .duplicateName rule.name) := by
  have parsed : rule.IsParsed := .inr ⟨text, member⟩
  rcases addRule_eq_error refused with running | ⟨unnamed, _⟩ | ⟨assigns, _⟩ | isRejected
  · exact .inl running
  · exact absurd unnamed (Document.name_ne_empty_of_mem_parse member)
  · rw [parsed.assigns_on_top.1] at assigns
    cases assigns
  · exact .inr isRejected

/-- What comes of an engine and a document. It is refused as a whole if it cannot be read, be it for
a fault of syntax or for a salience with too many digits, and during a run. Else the engine takes up
all its rules, or under the policy that rejects those in front of the first whose name is taken. -/
theorem addDocument_documented (engine : Engine) (text : String) :
    Documented engine text (engine.addDocument text).1 (engine.addDocument text).2 := by
  cases read : Rule.parseAll text with
  | error fault =>
      rw [addDocument_of_malformed read]
      cases isSyntax : fault.isSyntax with
      | true => exact .malformed read isSyntax
      | false =>
          obtain ⟨count, place, rfl⟩ := Grammar.Fault.isSyntax_eq_false_iff.1 isSyntax
          exact .overlong read
  | ok rules =>
      cases running : engine.phase.isRunning with
      | true =>
          have result := addRules_of_running running rules
          by_cases noRules : rules = []
          · rw [if_pos noRules] at result
            rw [addDocument_of_added read result]
            exact .added read (noRules ▸ registered_nil engine)
          · rw [if_neg noRules] at result
            rw [addDocument_of_stopped read result]
            exact .busy read running
      | false =>
          rcases addRules_cases engine rules with
            ⟨after, isAdded, registered⟩ |
              ⟨before, rule, behind, after, fault, same, stopped, registered, refused⟩
          · rw [addDocument_of_added read isAdded]
            exact .added read registered
          · rw [addDocument_of_stopped read stopped]
            have member : rule ∈ (Document.parse text).rules := by
              rw [Document.parseAll_eq_ok_iff.1 read, same]
              exact List.mem_append_right before List.mem_cons_self
            rcases addRule_eq_error_of_parsed member refused with
              ⟨runningAfter, _⟩ | ⟨isRejected, isDuplicate⟩
            · rw [registered.phase, running] at runningAfter
              cases runningAfter
            · obtain ⟨isReject, taken⟩ := RuleBase.add?_eq_none_iff.1 isRejected
              rw [registered.policy] at isReject
              rw [same] at read
              rw [isDuplicate]
              exact .taken read registered (registered.inFull isReject) isReject taken
                fun built => registered.historyOf_eq isReject built.keepsOwn

/-- A document with two rules of one name. -/
private def twiceText : String :=
  "rule A \x7b when true then a = 1; \x7d rule A \x7b when true then b = 2; \x7d"

theorem addDocument_twiceText :
    ((new .standard).addDocument twiceText).2.toOption.isNone = true ∧
      ruleNames ((new .standard).addDocument twiceText).1.base.rules = ["A"] := by
  decide +kernel

/-- A new engine has the first rule of this document afterwards, and is told of the second. -/
theorem addDocument_documented_twiceText :
    ∃ before rule behind, Rule.parseAll twiceText = .ok (before ++ rule :: behind) ∧
      ruleNames before = ["A"] ∧ rule.name = "A" ∧
      ((new .standard).addDocument twiceText).1.base.rules = before ∧
      ((new .standard).addDocument twiceText).2 = .error (.engine (.duplicateName "A")) ∧
      ∀ identity name, (((new .standard).addDocument twiceText).1.historyOf identity).get? name =
        ((new .standard).historyOf identity).get? name := by
  obtain ⟨isRefused, names⟩ := addDocument_twiceText
  have documented := addDocument_documented (new .standard) twiceText
  generalize ((new .standard).addDocument twiceText).1 = after at *
  generalize ((new .standard).addDocument twiceText).2 = result at *
  cases documented with
  | malformed | overlong | busy => cases names
  | @taken before behind rule _ read _ inFull _ taken kept =>
      obtain rfl : after.base.rules = before := inFull.trans (List.nil_append before)
      have isA : rule.name = "A" := by simpa [names] using taken
      exact ⟨_, rule, behind, read, names, isA, rfl, by rw [isA], kept (.new .standard)⟩
  | added => cases isRefused

/-- A document that is not taken up in full may leave a new engine with a rule. -/
theorem not_all_or_nothing :
    ¬ ∀ (engine after : Engine) (text : String) (fault : DocumentFault), engine.Built →
      engine.addDocument text = (after, .error fault) →
        after.base.rules = engine.base.rules ∧
          ∀ identity name,
            (after.historyOf identity).get? name = (engine.historyOf identity).get? name := by
  intro claimed
  obtain ⟨isRefused, names⟩ := addDocument_twiceText
  cases result : (new .standard).addDocument twiceText with
  | mk after outcome =>
      rw [result] at isRefused names
      cases outcome with
      | ok rules => cases isRefused
      | error fault =>
          obtain ⟨unchanged, _⟩ := claimed _ _ twiceText fault (.new .standard) result
          rw [unchanged] at names
          cases names

end Engine

end Rulebook
