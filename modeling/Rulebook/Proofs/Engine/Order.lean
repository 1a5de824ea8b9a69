import Mathlib.Data.List.Nodup
import Rulebook.Proofs.Engine.Execution

/-!
# Orders of turns

Orders of the turns of rules. Two rule bases with the same rules let them take their turns in orders
that differ only by swaps of neighbours of one salience; and to take rules out of a rule base takes
them out of the order of the turns, without a change to the others. No other order has the rules of
greater salience first and those of one salience as they stand in the rule base.
-/

namespace Rulebook

/-! ## Swaps of neighbours -/

section Swaps

universe u

variable {α : Type u} {swappable : α → α → Prop}

/-- `Swaps swappable source target` means that swaps of neighbours lead from one list to another,
where only some elements may be swapped. -/
inductive Swaps (swappable : α → α → Prop) : List α → List α → Prop
  | refl (source : List α) :
      Swaps swappable source source
  | trans {source middle target : List α} :
      Swaps swappable source middle →
      Swaps swappable middle target →
      Swaps swappable source target
  | cons (first : α) {source target : List α} :
      Swaps swappable source target →
      Swaps swappable (first :: source) (first :: target)
  | swap (first second : α) (rest : List α) :
      swappable first second →
      Swaps swappable (first :: second :: rest) (second :: first :: rest)

/-- An element that may be swapped with all in front of it may be brought to the front. -/
theorem Swaps.toFront {chosen : α} {before behind : List α}
    (crossed : ∀ other ∈ before, swappable other chosen) :
    Swaps swappable (before ++ chosen :: behind) (chosen :: (before ++ behind)) := by
  induction before with
  | nil => exact .refl _
  | cons first before inductionHypothesis =>
      have crossedLater : ∀ other ∈ before, swappable other chosen :=
        fun other member => crossed other (List.mem_cons_of_mem first member)
      have moved := Swaps.cons first (inductionHypothesis crossedLater)
      exact moved.trans (.swap first chosen _ (crossed first List.mem_cons_self))

/-- Two sorted lists of the same elements differ by swaps of elements that may stand in either
order. -/
theorem Swaps.of_perm {le : α → α → Prop} {source target : List α} (perm : source.Perm target)
    (distinct : source.Nodup) (sorted : source.Pairwise le) (sortedTarget : target.Pairwise le)
    (ties : ∀ first ∈ source, ∀ second ∈ source, first ≠ second → le first second →
      le second first → swappable first second) :
    Swaps swappable source target := by
  induction target generalizing source with
  | nil =>
      rw [perm.eq_nil]
      exact .refl []
  | cons chosen target inductionHypothesis =>
      obtain ⟨before, behind, rfl⟩ := List.append_of_mem (perm.mem_iff.2 List.mem_cons_self)
      obtain ⟨_, sortedBehind, inOrder⟩ := List.pairwise_append.1 sorted
      obtain ⟨chosenFirst, sortedLater⟩ := List.pairwise_cons.1 sortedTarget
      have permLater : (before ++ behind).Perm target :=
        List.perm_cons chosen |>.1 (List.perm_middle.symm.trans perm)
      have distinctLater : (chosen :: (before ++ behind)).Nodup :=
        List.perm_middle.nodup_iff.1 distinct
      have kept : (before ++ behind).Sublist (before ++ chosen :: behind) :=
        (List.sublist_cons_self chosen behind).append_left before
      have crossed : ∀ other ∈ before, swappable other chosen := by
        intro other member
        have inTarget : other ∈ target := permLater.mem_iff.1 (List.mem_append_left _ member)
        have different : other ≠ chosen := by
          rintro rfl
          exact (List.nodup_cons.1 distinctLater).1 (List.mem_append_left _ member)
        exact ties other (by simp [member]) chosen (by simp) different
          (inOrder other member chosen List.mem_cons_self) (chosenFirst other inTarget)
      have tiesLater : ∀ first ∈ before ++ behind, ∀ second ∈ before ++ behind, first ≠ second →
          le first second → le second first → swappable first second :=
        fun first member second memberToo =>
          ties first (kept.subset member) second (kept.subset memberToo)
      have later := inductionHypothesis permLater (List.nodup_cons.1 distinctLater).2
        (sorted.sublist kept) sortedLater tiesLater
      exact (Swaps.toFront crossed).trans (.cons chosen later)

end Swaps

/-! ## Elements that are left out -/

section LeftOut

universe u

variable {α : Type u} {le : α → α → Bool}

private theorem eq_of_append_eq_append {holds : α → Bool} {before behind first second : List α}
    (same : before ++ behind = first ++ second)
    (beforeHolds : ∀ element ∈ before, holds element = true)
    (firstHolds : ∀ element ∈ first, holds element = true)
    (behindFails : ∀ element ∈ behind, holds element = false)
    (secondFails : ∀ element ∈ second, holds element = false) :
    before = first ∧ behind = second := by
  have filtered := congrArg (List.filter holds) same
  rw [List.filter_append, List.filter_append, List.filter_eq_self.2 beforeHolds,
    List.filter_eq_self.2 firstHolds, List.filter_eq_nil_iff.2 (by simpa using behindFails),
    List.filter_eq_nil_iff.2 (by simpa using secondFails), List.append_nil,
    List.append_nil] at filtered
  subst filtered
  exact ⟨rfl, List.append_cancel_left same⟩

/-- Elements that are left out of a list are left out of the sorted list. -/
theorem mergeSort_filter
    (trans : ∀ first second third, le first second = true → le second third = true →
      le first third = true)
    (total : ∀ first second, (le first second || le second first) = true) (kept : α → Bool)
    (elements : List α) :
    (elements.filter kept).mergeSort le = (elements.mergeSort le).filter kept := by
  induction elements with
  | nil => simp
  | cons first rest inductionHypothesis =>
      obtain ⟨before, behind, sorted, sortedRest, crossed⟩ :=
        List.mergeSort_cons trans total first rest
      rw [sortedRest, List.filter_append] at inductionHypothesis
      rw [sorted, List.filter_append]
      cases isKept : kept first with
      | false =>
          have notKept : ¬ kept first = true := by simp [isKept]
          rw [List.filter_cons_of_neg notKept, List.filter_cons_of_neg notKept]
          exact inductionHypothesis
      | true =>
          rw [List.filter_cons_of_pos isKept, List.filter_cons_of_pos isKept]
          obtain ⟨beforeKept, behindKept, sortedKept, sortedRestKept, crossedKept⟩ :=
            List.mergeSort_cons trans total first (rest.filter kept)
          -- an element stands before the first one just if the order tells it to
          have behindFirst {before behind elements : List α}
              (isSorted : elements.mergeSort le = before ++ first :: behind) :
              ∀ element ∈ behind, (!le first element) = false := by
            intro element member
            have inOrder := List.pairwise_mergeSort trans total elements
            rw [isSorted] at inOrder
            obtain ⟨_, inOrderBehind, _⟩ := List.pairwise_append.1 inOrder
            have follows := (List.pairwise_cons.1 inOrderBehind).1 element member
            simp [follows]
          obtain ⟨sameBefore, sameBehind⟩ :=
            eq_of_append_eq_append (sortedRestKept.symm.trans inductionHypothesis) crossedKept
              (fun element member => crossed element (List.mem_filter.1 member).1)
              (behindFirst sortedKept)
              (fun element member => behindFirst sorted element (List.mem_filter.1 member).1)
          rw [sortedKept, sameBefore, sameBehind]

end LeftOut

/-! ## Elements in front of others -/

section InFront

universe u

variable {α : Type u} {first second : α} {elements : List α}

theorem pair_sublist_of_mem (firstMember : first ∈ elements) (secondMember : second ∈ elements)
    (different : first ≠ second) :
    [first, second].Sublist elements ∨ [second, first].Sublist elements := by
  obtain ⟨before, behind, rfl⟩ := List.append_of_mem firstMember
  rcases List.mem_append.1 secondMember with isBefore | isBehind
  · have inOrder := (List.singleton_sublist.2 isBefore).append
      (List.singleton_sublist.2 (List.mem_cons_self (a := first) (l := behind)))
    exact .inr inOrder
  · have isBehindFirst := (List.mem_cons.1 isBehind).resolve_left (Ne.symm different)
    have inOrder := (List.singleton_sublist.2 isBehindFirst).cons_cons first
    exact .inl (List.sublist_append_of_sublist_right inOrder)

/-- In a list without repetitions no two elements stand in front of each other. -/
theorem not_pair_sublist_swap (distinct : elements.Nodup)
    (inOrder : [first, second].Sublist elements) : ¬ [second, first].Sublist elements := by
  induction elements with
  | nil => cases inOrder
  | cons element elements inductionHypothesis =>
      obtain ⟨absent, distinctLater⟩ := List.nodup_cons.1 distinct
      intro swapped
      rcases List.sublist_cons_iff.1 inOrder with later | ⟨_, same, secondLater⟩
      · rcases List.sublist_cons_iff.1 swapped with swappedLater | ⟨_, same, _⟩
        · exact inductionHypothesis distinctLater later swappedLater
        · cases same
          exact absent (later.subset (by simp))
      · cases same
        have secondMember : second ∈ elements := List.singleton_sublist.1 secondLater
        rcases List.sublist_cons_iff.1 swapped with swappedLater | ⟨_, same, _⟩
        · exact absent (swappedLater.subset (by simp))
        · cases same
          exact absent secondMember

end InFront

/-! ## The order of salience -/

/-- Whether a rule may take its turn before another, by their saliences. -/
def mayPrecede (rule other : Rule) : Bool :=
  decide (other.salience ≤ rule.salience)

theorem mayPrecede_trans (rule other third : Rule) (first : mayPrecede rule other = true)
    (second : mayPrecede other third = true) : mayPrecede rule third = true := by
  simp only [mayPrecede, decide_eq_true_eq] at *
  omega

theorem mayPrecede_total (rule other : Rule) :
    (mayPrecede rule other || mayPrecede other rule) = true := by
  simp only [mayPrecede, Bool.or_eq_true, decide_eq_true_eq]
  omega

namespace RuleBase

theorem bySalience_eq (base : RuleBase) : base.bySalience = base.rules.mergeSort mayPrecede := rfl

theorem pairwise_bySalience (base : RuleBase) :
    base.bySalience.Pairwise fun rule other => mayPrecede rule other = true :=
  List.pairwise_mergeSort mayPrecede_trans mayPrecede_total base.rules

/-- The orders of the turns in two rule bases with the same rules differ by swaps of rules of one
salience. -/
theorem swaps_bySalience {base other : RuleBase} {swappable : Rule → Rule → Prop}
    (sameRules : base.rules.Perm other.rules)
    (ties : ∀ rule ∈ base.rules, ∀ another ∈ base.rules, rule ≠ another →
      rule.salience = another.salience → swappable rule another) :
    Swaps swappable base.bySalience other.bySalience := by
  have perm : base.bySalience.Perm other.bySalience :=
    base.perm_bySalience.trans (sameRules.trans other.perm_bySalience.symm)
  refine Swaps.of_perm perm (List.Nodup.of_map _ base.nodup_bySalience) base.pairwise_bySalience
    other.pairwise_bySalience fun rule member another memberToo different before behind => ?_
  simp only [mayPrecede, decide_eq_true_eq] at before behind
  exact ties rule (base.perm_bySalience.mem_iff.1 member) another
    (base.perm_bySalience.mem_iff.1 memberToo) different (Int.le_antisymm behind before)

/-- Where rules are taken out of a rule base, the others take their turns in the same order. -/
theorem bySalience_of_filter {base other : RuleBase} {kept : Rule → Bool}
    (fewer : other.rules = base.rules.filter kept) :
    other.bySalience = base.bySalience.filter kept := by
  rw [bySalience_eq, bySalience_eq, fewer, mergeSort_filter mayPrecede_trans mayPrecede_total]

/-- `KeepsTies base order` means that an order of the rules of a rule base has no rule behind one of
less salience, and rules of one salience as they stand in the rule base. -/
structure KeepsTies (base : RuleBase) (order : List Rule) : Prop where
  perm : order.Perm base.rules
  sorted : order.Pairwise fun rule other => other.salience ≤ rule.salience
  ties : ∀ rule other, rule.salience = other.salience →
    [rule, other].Sublist base.rules → [rule, other].Sublist order

/-- Rules of one salience stand in the order of the rule base. -/
theorem keepsTies_bySalience (base : RuleBase) : KeepsTies base base.bySalience := by
  refine ⟨base.perm_bySalience, ?_, fun rule other tied inOrder => ?_⟩
  · exact base.pairwise_bySalience.imp fun {rule other} precedes => of_decide_eq_true precedes
  · have mayPrecede : mayPrecede rule other = true := decide_eq_true (Int.le_of_eq tied.symm)
    exact List.pair_sublist_mergeSort mayPrecede_trans mayPrecede_total mayPrecede inOrder

/-- Whether a rule takes its turn before another: by its salience, or by its place in the rule
base. -/
def Precedes (base : RuleBase) (rule other : Rule) : Prop :=
  other.salience < rule.salience ∨
    rule.salience = other.salience ∧ [rule, other].Sublist base.rules

theorem nodup_rules (base : RuleBase) : base.rules.Nodup :=
  List.Nodup.of_map Rule.name base.distinct

theorem KeepsTies.pairwise {base : RuleBase} {order : List Rule} (keeps : KeepsTies base order) :
    order.Pairwise base.Precedes := by
  have distinct : order.Nodup := keeps.perm.nodup_iff.2 base.nodup_rules
  rw [List.pairwise_iff_forall_sublist]
  intro rule other inOrder
  have member : rule ∈ base.rules := keeps.perm.mem_iff.1 (inOrder.subset (by simp))
  have otherMember : other ∈ base.rules := keeps.perm.mem_iff.1 (inOrder.subset (by simp))
  have different : rule ≠ other := by
    rintro rfl
    exact List.nodup_iff_sublist.1 distinct rule inOrder
  have notLess : other.salience ≤ rule.salience := keeps.sorted.forall_sublist inOrder
  by_cases tied : rule.salience = other.salience
  · rcases pair_sublist_of_mem member otherMember different with asInBase | swapped
    · exact .inr ⟨tied, asInBase⟩
    · exact absurd (keeps.ties other rule tied.symm swapped) (not_pair_sublist_swap distinct inOrder)
  · exact .inl (by omega)

/-- The order of the turns is the only one with greater salience first in which rules of one salience
stand as they do in the rule base. -/
theorem eq_bySalience_iff {base : RuleBase} {order : List Rule} :
    order = base.bySalience ↔ KeepsTies base order := by
  constructor
  · rintro rfl
    exact base.keepsTies_bySalience
  · intro keeps
    have perm : order.Perm base.bySalience := keeps.perm.trans base.perm_bySalience.symm
    refine perm.eq_of_pairwise ?_ keeps.pairwise base.keepsTies_bySalience.pairwise
    rintro rule other _ _ (greater | ⟨tied, inOrder⟩) (otherGreater | ⟨_, swapped⟩)
    · omega
    · omega
    · omega
    · exact absurd swapped (not_pair_sublist_swap base.nodup_rules inOrder)

end RuleBase

end Rulebook
