import Rulebook.Yaml.Node

/-!
# Faults and members of collections

Of the faults below a node the nearest counts, and among those of one level the first. A collection
has a datum exactly if all its members have one. In the datum of a mapping no two entries are under
the same key, and the entry under a text is the last that is written under it.
-/

namespace Rulebook

namespace Yaml

/-! ## The fault that counts -/

theorem Late.first?_eq_none_iff {lates : List Late} : Late.first? lates = none ↔ lates = [] := by
  cases lates with
  | nil => simp [Late.first?]
  | cons late more => cases found : Late.first? more <;> simp [Late.first?, found]

private theorem first?_cons {late other : Late} {more : List Late}
    (found : Late.first? more = some other) :
    Late.first? (late :: more) = some (if other.level < late.level then other else late) := by
  simp only [Late.first?, found]

private theorem exists_of_first? {lates : List Late} {late : Late}
    (found : Late.first? lates = some late) :
    ∃ before after, lates = before ++ late :: after ∧
      (∀ other ∈ before, late.level < other.level) ∧
      ∀ other ∈ after, late.level ≤ other.level := by
  induction lates generalizing late with
  | nil => cases found
  | cons first more inductionHypothesis =>
    cases rest : Late.first? more with
    | none =>
      obtain rfl := Late.first?_eq_none_iff.mp rest
      obtain rfl : first = late := Option.some.inj found
      exact ⟨[], [], rfl, by simp, by simp⟩
    | some other =>
      obtain ⟨before, after, rfl, deeper, notNearer⟩ := inductionHypothesis rest
      rw [first?_cons rest] at found
      split at found
      · rename_i nearer
        cases found
        exact ⟨first :: before, after, rfl, List.forall_mem_cons.mpr ⟨nearer, deeper⟩, notNearer⟩
      · rename_i notNearerThanFirst
        cases found
        have le := Nat.not_lt.mp notNearerThanFirst
        refine ⟨[], _, rfl, by simp, List.forall_mem_append.mpr ⟨?before, ?behind⟩⟩
        case before => exact fun other earlier => Nat.le_trans le (Nat.le_of_lt (deeper _ earlier))
        case behind =>
          exact List.forall_mem_cons.mpr
            ⟨le, fun other later => Nat.le_trans le (notNearer other later)⟩

private theorem first?_append {before after : List Late} {late : Late}
    (deeper : ∀ other ∈ before, late.level < other.level)
    (notNearer : ∀ other ∈ after, late.level ≤ other.level) :
    Late.first? (before ++ late :: after) = some late := by
  induction before with
  | nil =>
    cases rest : Late.first? after with
    | none =>
      obtain rfl := Late.first?_eq_none_iff.mp rest
      rfl
    | some other =>
      obtain ⟨before, behind, rfl, -, -⟩ := exists_of_first? rest
      have le := notNearer other (by simp)
      rw [List.nil_append, first?_cons rest, if_neg (Nat.not_lt.mpr le)]
  | cons first before inductionHypothesis =>
    obtain ⟨firstDeeper, deeper⟩ := List.forall_mem_cons.mp deeper
    rw [List.cons_append, first?_cons (inductionHypothesis deeper), if_pos firstDeeper]

/-- All faults before the one that counts are deeper, and none behind it is nearer. -/
theorem Late.first?_eq_some_iff {lates : List Late} {late : Late} :
    Late.first? lates = some late ↔
      ∃ before after, lates = before ++ late :: after ∧
        (∀ other ∈ before, late.level < other.level) ∧
        ∀ other ∈ after, late.level ≤ other.level := by
  refine ⟨exists_of_first?, ?_⟩
  rintro ⟨before, after, rfl, deeper, notNearer⟩
  exact first?_append deeper notNearer

/-! ## Members of collections -/

namespace Node

/-- Either all members have a datum, or one of them has a fault. -/
private theorem outcomes_cases (outcomes : List Outcome) :
    (∃ data : List Plain, outcomes = data.map Except.ok) ∨
      outcomes.filterMap faultOf? ≠ [] := by
  induction outcomes with
  | nil => exact .inl ⟨[], rfl⟩
  | cons outcome outcomes inductionHypothesis =>
    cases outcome with
    | error late => exact .inr (by simp [faultOf?])
    | ok datum =>
      rcases inductionHypothesis with ⟨data, rfl⟩ | faulty
      · exact .inl ⟨datum :: data, rfl⟩
      · exact .inr (by simpa [faultOf?] using faulty)

private theorem filled_map_ok (data : List Plain) (fill : List Plain → Plain) :
    filled (data.map Except.ok) fill = .ok (fill data) := by
  have noFaults : (data.map Except.ok).filterMap faultOf? = [] := by simp [faultOf?]
  have kept : (data.map Except.ok).filterMap datumOf? = data := by
    simp [List.filterMap_map, Function.comp_def, datumOf?]
  rw [filled, noFaults, kept]
  rfl

/-- A collection has a datum exactly if all its members have one. -/
theorem filled_eq_ok_iff {outcomes : List Outcome} {fill : List Plain → Plain} {datum : Plain} :
    filled outcomes fill = .ok datum ↔
      ∃ data, outcomes = data.map Except.ok ∧ datum = fill data := by
  constructor
  · intro found
    rcases outcomes_cases outcomes with ⟨data, rfl⟩ | faulty
    · rw [filled_map_ok] at found
      exact ⟨data, rfl, (Except.ok.inj found).symm⟩
    · unfold filled at found
      split at found
      · cases found
      · rename_i none
        exact absurd (Late.first?_eq_none_iff.mp none) faulty
  · rintro ⟨data, rfl, rfl⟩
    exact filled_map_ok data fill

end Node

end Yaml

/-! ## Entries of a mapping -/

namespace Plain

variable {key datum : Plain} {entries : List (Plain × Plain)} {name : String}

private theorem sameKey_text_iff : sameKey key (.text name) = true ↔ key = .text name := by
  cases key <;> simp [sameKey, asInteger?]

private theorem eq_text_of_sameKey (same : sameKey (.text name) key = true) : key = .text name := by
  cases key <;> simp_all [sameKey, asInteger?]

theorem lookup?_cons_of_ne (different : key ≠ .text name) :
    lookup? name ((key, datum) :: entries) = lookup? name entries := by
  cases key <;> simp_all [lookup?]

/-- No key is the same as one before it. -/
def DistinctKeys (entries : List (Plain × Plain)) : Prop :=
  (entries.map Prod.fst).Pairwise fun earlier later => sameKey earlier later = false

/-- An entry is put in the place of the one under its key, or behind all if there is none. -/
private theorem keys_setEntry (key datum : Plain) (entries : List (Plain × Plain)) :
    (setEntry key datum entries).map Prod.fst = entries.map Prod.fst ∨
      (∀ earlier ∈ entries.map Prod.fst, sameKey earlier key = false) ∧
        (setEntry key datum entries).map Prod.fst = entries.map Prod.fst ++ [key] := by
  fun_induction setEntry key datum entries with
  | case1 => exact .inr ⟨by simp, rfl⟩
  | case2 => exact .inl rfl
  | case3 found old entries different inductionHypothesis =>
    rcases inductionHypothesis with kept | ⟨apart, added⟩
    · exact .inl (congrArg (found :: ·) kept)
    · refine .inr ⟨fun earlier member => ?_, congrArg (found :: ·) added⟩
      rcases List.mem_cons.mp member with rfl | later
      · simpa using different
      · exact apart earlier later

/-- To set an entry puts no key there twice. -/
theorem distinctKeys_setEntry (key datum : Plain) (distinct : DistinctKeys entries) :
    DistinctKeys (setEntry key datum entries) := by
  unfold DistinctKeys
  rcases keys_setEntry key datum entries with kept | ⟨apart, added⟩
  · rw [kept]
    exact distinct
  · rw [added, List.pairwise_append]
    refine ⟨distinct, List.pairwise_singleton _ _, fun earlier member later isKey => ?_⟩
    rw [List.mem_singleton.mp isKey]
    exact apart earlier member

/-- What was set is found under its text. -/
theorem lookup?_setEntry_self (name : String) (datum : Plain) (entries : List (Plain × Plain)) :
    lookup? name (setEntry (.text name) datum entries) = some datum := by
  fun_induction setEntry (.text name) datum entries with
  | case1 => simp [lookup?]
  | case2 found old entries same =>
    rw [sameKey_text_iff.mp same]
    simp [lookup?]
  | case3 found old entries different inductionHypothesis =>
    rw [lookup?_cons_of_ne fun same => different (sameKey_text_iff.mpr same), inductionHypothesis]

theorem lookup?_setEntry_of_ne (different : key ≠ .text name) (datum : Plain)
    (entries : List (Plain × Plain)) :
    lookup? name (setEntry key datum entries) = lookup? name entries := by
  fun_induction setEntry key datum entries with
  | case1 => exact lookup?_cons_of_ne different
  | case2 found old entries same =>
    have apart : found ≠ .text name := fun isName => different (eq_text_of_sameKey (isName ▸ same))
    rw [lookup?_cons_of_ne apart, lookup?_cons_of_ne apart]
  | case3 found old entries notSame inductionHypothesis =>
    cases found <;> simp_all [lookup?]

end Plain

namespace Yaml.Node

/-- The datum of a mapping has no two entries under the same key. -/
theorem distinctKeys_entriesOf (data : List Plain) {entries : List (Plain × Plain)}
    (distinct : Plain.DistinctKeys entries) : Plain.DistinctKeys (entriesOf entries data) := by
  fun_induction entriesOf entries data with
  | case1 entries key value data inductionHypothesis =>
    exact inductionHypothesis (Plain.distinctKeys_setEntry key value distinct)
  | case2 => exact distinct

/-- The last datum that is written under a text, in keys and data by turns. -/
def lastUnder? (name : String) : List Plain → Option Plain
  | key :: value :: data => (lastUnder? name data).or (Plain.lookup? name [(key, value)])
  | _ => none

/-- Of several entries under one text the last counts. -/
theorem lookup?_entriesOf (name : String) (entries : List (Plain × Plain)) (data : List Plain) :
    Plain.lookup? name (entriesOf entries data) =
      (lastUnder? name data).or (Plain.lookup? name entries) := by
  fun_induction entriesOf entries data with
  | case1 entries key value data inductionHypothesis =>
    rw [inductionHypothesis, lastUnder?, Option.or_assoc]
    congr 1
    by_cases isName : key = .text name
    · rw [isName, Plain.lookup?_setEntry_self]
      simp [Plain.lookup?]
    · rw [Plain.lookup?_setEntry_of_ne isName, Plain.lookup?_cons_of_ne isName]
      rfl
  | case2 data entries notPair =>
    have nothing : lastUnder? name data = none := by
      unfold lastUnder?
      split
      · exact (notPair _ _ _ rfl).elim
      · rfl
    rw [nothing, Option.none_or]

/-- The entries that a mapping stands for come from those that are written in it or merged into it,
and no two are under the same key. -/
theorem exists_of_outcomeOfMapping {text? : Option String} {merged? : Option (List (Node × Node))}
    {entries : List (Plain × Plain)}
    (made : outcomeOfMapping .mapping text? merged? = .ok (.mapping entries)) :
    ∃ written data, merged? = some written ∧
      written.flatMap outcomesOfEntry = data.map Except.ok ∧ entries = entriesOf [] data ∧
      Plain.DistinctKeys entries := by
  simp only [outcomeOfMapping, filledByEntries] at made
  split at made
  · rename_i written
    obtain ⟨data, outcomes, same⟩ := filled_eq_ok_iff.mp made
    cases same
    exact ⟨written, data, rfl, outcomes, rfl, distinctKeys_entriesOf data List.Pairwise.nil⟩
  · cases made

end Yaml.Node

end Rulebook
