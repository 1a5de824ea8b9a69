import Rulebook.Proofs.Engine.Turn

/-!
# Turns of a run

The turns of a run, one after another: the facts by which each condition was judged, and whether
the actions were attempted. What holds before a run and is kept by every turn holds at every turn.
-/

namespace Rulebook

/-- A turn of a rule as seen from outside: the facts when its condition was evaluated, and whether
its actions were attempted. -/
structure Turn where
  rule : Rule
  store : Store
  attempted : Bool

namespace Run

variable {refraction : Bool} {pass : Nat} {rule : Rule} {rules : List Rule} {run : Run}

/-! ## Attempts -/

/-- Whether an attempt lies between two moments of a run: a rule fired, or an action failed. -/
def hasAttempted (before after : Run) : Bool :=
  decide (before.fired.length < after.fired.length) ||
    (after.failures.drop before.failures.length).any fun failure => decide (failure.part = .action)

theorem hasAttempted_self (run : Run) : hasAttempted run run = false := by
  simp [hasAttempted]

private theorem hasAttempted_conditionFailed (fault : Expr.Fault) :
    hasAttempted run
      { run with failures := run.failures ++ [⟨rule.name, .condition, pass, fault⟩] } = false := by
  simp [hasAttempted]

theorem hasAttempted_attempt (signature : Signature) :
    hasAttempted run (attempt refraction pass rule signature run).1 = true := by
  rw [hasAttempted, attempt]
  split <;> simp

def turn (refraction : Bool) (pass : Nat) (rule : Rule) (run : Run) : Turn :=
  ⟨rule, run.store, hasAttempted run (takeTurn refraction pass rule run).1⟩

/-- The actions of a rule are attempted where its condition holds and it is not passed over. -/
theorem attempted_turn_iff :
    (turn refraction pass rule run).attempted = true ↔
      rule.Holds run.store ∧ ¬ Suppressed refraction rule run.history run.store := by
  have possible := takeTurn_cases refraction pass rule run
  simp only [turn]
  generalize takeTurn refraction pass rule run = result at *
  cases possible with
  | conditionFailed fault failed =>
      rw [hasAttempted_conditionFailed]
      refine iff_of_false Bool.false_ne_true ?_
      rintro ⟨holds, _⟩
      rw [Rule.Holds, failed] at holds
      cases holds
  | notHolding notHolding =>
      rw [hasAttempted_self]
      exact iff_of_false Bool.false_ne_true fun both => notHolding both.1
  | suppressed holds suppressed =>
      rw [hasAttempted_self]
      exact iff_of_false Bool.false_ne_true fun both => both.2 suppressed
  | attempted holds notSuppressed =>
      rw [hasAttempted_attempt]
      exact iff_of_true rfl ⟨holds, notSuppressed⟩

/-- An attempt is entered into the history, whether it succeeds or fails. -/
theorem takeTurn_history_of_attempted
    (attempted : (turn refraction pass rule run).attempted = true) :
    (takeTurn refraction pass rule run).1.history =
      recordAttempt refraction rule (Signature.ofRule rule run.store) run.history := by
  obtain ⟨holds, notSuppressed⟩ := attempted_turn_iff.1 attempted
  rw [takeTurn_of_holds holds notSuppressed, attempt_history]

theorem takeTurn_history_of_not_attempted
    (notAttempted : (turn refraction pass rule run).attempted = false) :
    (takeTurn refraction pass rule run).1.history = run.history := by
  have possible := takeTurn_cases refraction pass rule run
  simp only [turn] at notAttempted
  generalize takeTurn refraction pass rule run = result at *
  cases possible with
  | attempted holds notSuppressed =>
      rw [hasAttempted_attempt] at notAttempted
      cases notAttempted
  | _ => rfl

/-! ## Turns one after another -/

def passTurns (refraction : Bool) (pass : Nat) : List Rule → Run → List Turn
  | [], _ => []
  | rule :: rules, run =>
    turn refraction pass rule run ::
      passTurns refraction pass rules (takeTurn refraction pass rule run).1

def runTurns (refraction : Bool) (rules : List Rule) : (allowed made : Nat) → Run → List Turn
  | 0, _, _ => []
  | allowed + 1, made, run =>
    passTurns refraction (made + 1) rules run ++
      if (takePass refraction (made + 1) rules run).2 then
        runTurns refraction rules allowed (made + 1) (takePass refraction (made + 1) rules run).1
      else []

/-- `Turns refraction rules run turns last` means that the turns, taken by some of the rules, lead
from one moment of a run to another. -/
inductive Turns (refraction : Bool) (rules : List Rule) : Run → List Turn → Run → Prop
  | nil (run : Run) :
      Turns refraction rules run [] run
  | cons (pass : Nat) {rule : Rule} {run last : Run} {later : List Turn} :
      rule ∈ rules →
      Turns refraction rules (takeTurn refraction pass rule run).1 later last →
      Turns refraction rules run (turn refraction pass rule run :: later) last

theorem Turns.append {first second third : Run} {before behind : List Turn}
    (turns : Turns refraction rules first before second)
    (later : Turns refraction rules second behind third) :
    Turns refraction rules first (before ++ behind) third := by
  induction turns with
  | nil run => exact later
  | cons pass member _ inductionHypothesis => exact .cons pass member (inductionHypothesis later)

/-- What holds at one moment of a run and is kept by the turn of each rule holds at all turns, and in
the end. -/
theorem Turns.invariant {p : Run → Prop} {last : Run} {turns : List Turn}
    (taken : Turns refraction rules run turns last) (start : p run)
    (kept : ∀ pass, ∀ rule ∈ rules, ∀ reached, p reached →
      p (takeTurn refraction pass rule reached).1) :
    p last ∧ ∀ turn ∈ turns, ∃ reached, p reached ∧ reached.store = turn.store := by
  induction taken with
  | nil run => exact ⟨start, fun turn member => absurd member List.not_mem_nil⟩
  | @cons pass rule run last later member _ inductionHypothesis =>
      obtain ⟨inTheEnd, atLater⟩ := inductionHypothesis (kept pass rule member run start)
      refine ⟨inTheEnd, fun turn isTurn => ?_⟩
      rcases List.mem_cons.1 isTurn with isFirst | isLater
      · exact ⟨run, start, congrArg Turn.store isFirst.symm⟩
      · exact atLater turn isLater

private theorem turns_takePass {some : List Rule} (members : ∀ rule ∈ some, rule ∈ rules) :
    Turns refraction rules run (passTurns refraction pass some run)
      (takePass refraction pass some run).1 := by
  induction some generalizing run with
  | nil => exact .nil run
  | cons rule others inductionHypothesis =>
      have membersLater : ∀ other ∈ others, other ∈ rules := fun other member =>
        members other (List.mem_cons_of_mem rule member)
      exact .cons pass (members rule List.mem_cons_self) (inductionHypothesis membersLater)

/-- The passes of a run are made of the turns in its trace. -/
theorem turns_takePasses {allowed made : Nat} :
    Turns refraction rules run (runTurns refraction rules allowed made run)
      (takePasses refraction rules allowed made run).run := by
  induction allowed generalizing made run with
  | zero => exact .nil run
  | succ allowed inductionHypothesis =>
      have firstPass : Turns refraction rules run (passTurns refraction (made + 1) rules run)
          (takePass refraction (made + 1) rules run).1 := turns_takePass fun _ member => member
      rw [runTurns]
      refine firstPass.append ?_
      cases changed : (takePass refraction (made + 1) rules run).2 with
      | true =>
          rw [takePasses_of_changed changed]
          exact inductionHypothesis
      | false =>
          rw [takePasses_of_unchanged changed]
          exact .nil _

end Run

end Rulebook
