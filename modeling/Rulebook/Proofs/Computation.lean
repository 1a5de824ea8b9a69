/-!
# Computations

Computations that end with a result or with a fault. What a computation of several steps ends with
tells what each of its steps ended with.
-/

namespace Rulebook

universe u v

variable {α β : Type u} {ε δ : Type v}

/-- A computation in two steps succeeds exactly if both do. -/
theorem bind_eq_ok_iff {first : Except ε α} {second : α → Except ε β} {result : β} :
    first >>= second = .ok result ↔ ∃ between, first = .ok between ∧ second between = .ok result := by
  cases first with
  | error fault =>
      constructor
      · intro ended
        cases ended
      · rintro ⟨between, isBetween, _⟩
        cases isBetween
  | ok found =>
      constructor
      · intro ended
        exact ⟨found, rfl, ended⟩
      · rintro ⟨between, isBetween, ended⟩
        cases isBetween
        exact ended

/-- To relabel faults makes no computation succeed. -/
theorem eq_ok_of_mapError {computed : Except ε α} {f : ε → δ} {result : α}
    (mapped : computed.mapError f = .ok result) : computed = .ok result := by
  cases computed with
  | error fault => cases mapped
  | ok found =>
      cases mapped
      rfl

theorem mapError_eq_ok {computed : Except ε α} {f : ε → δ} {result : α}
    (ended : computed = .ok result) : computed.mapError f = .ok result := by
  rw [ended]
  rfl

def fault? : Except ε α → Option ε
  | .ok _ => none
  | .error fault => some fault

theorem eq_error_of_fault? {computed : Except ε α} {fault : ε}
    (ended : fault? computed = some fault) : computed = .error fault := by
  cases computed with
  | error found => exact congrArg Except.error (Option.some.inj ended)
  | ok result => cases ended

/-- `Alike related first second` means that two computations end with the same fault, or with results
that are related. -/
inductive Alike (related : α → α → Prop) : Except ε α → Except ε α → Prop
  | error (fault : ε) :
      Alike related (.error fault) (.error fault)
  | ok {result other : α} :
      related result other →
      Alike related (.ok result) (.ok other)

/-- Computations in two steps are alike if the steps are. -/
theorem Alike.bind {related : α → α → Prop} {relatedLater : β → β → Prop}
    {first other : Except ε α} {second otherSecond : α → Except ε β}
    (alike : Alike related first other)
    (later : ∀ result otherResult, related result otherResult →
      Alike relatedLater (second result) (otherSecond otherResult)) :
    Alike relatedLater (first >>= second) (other >>= otherSecond) := by
  cases alike with
  | error fault => exact .error fault
  | ok areRelated => exact later _ _ areRelated

theorem Alike.bind_self {relatedLater : β → β → Prop} (first : Except ε α)
    {second otherSecond : α → Except ε β}
    (later : ∀ result, Alike relatedLater (second result) (otherSecond result)) :
    Alike relatedLater (first >>= second) (first >>= otherSecond) := by
  cases first with
  | error fault => exact .error fault
  | ok result => exact later result

theorem Alike.mapError {related : α → α → Prop} {first other : Except ε α} (f : ε → δ)
    (alike : Alike related first other) :
    Alike related (first.mapError f) (other.mapError f) := by
  cases alike with
  | error fault => exact .error (f fault)
  | ok areRelated => exact .ok areRelated

theorem Alike.map {related : α → α → Prop} {relatedLater : β → β → Prop}
    {first other : Except ε α} {f : α → β} (alike : Alike related first other)
    (later : ∀ result otherResult, related result otherResult →
      relatedLater (f result) (f otherResult)) :
    Alike relatedLater (first.map f) (other.map f) := by
  cases alike with
  | error fault => exact .error fault
  | ok areRelated => exact .ok (later _ _ areRelated)

/-- The results of computations that are alike, with where they come from. -/
theorem Alike.results {related : α → α → Prop} {first other : Except ε α}
    (alike : Alike related first other) :
    Alike (fun result otherResult =>
      first = .ok result ∧ other = .ok otherResult ∧ related result otherResult) first other := by
  cases alike with
  | error fault => exact .error fault
  | ok areRelated => exact .ok ⟨rfl, rfl, areRelated⟩

/-- `EndsOnlyWith allowed computed` means that a computation ends with no fault but an allowed
one. -/
def EndsOnlyWith (allowed : ε → Prop) (computed : Except ε α) : Prop :=
  ∀ fault, computed = .error fault → allowed fault

theorem EndsOnlyWith.ok {allowed : ε → Prop} (result : α) :
    EndsOnlyWith allowed (.ok result) := by
  intro fault ended
  cases ended

theorem EndsOnlyWith.error {allowed : ε → Prop} {fault : ε} (isAllowed : allowed fault) :
    EndsOnlyWith (α := α) allowed (.error fault) := by
  intro other ended
  cases ended
  exact isAllowed

/-- Faults of both steps are among the allowed ones if those of each are. -/
theorem EndsOnlyWith.bind {allowed : ε → Prop} {first : Except ε α} {second : α → Except ε β}
    (ends : EndsOnlyWith allowed first) (later : ∀ result, EndsOnlyWith allowed (second result)) :
    EndsOnlyWith allowed (first >>= second) := by
  cases first with
  | error fault => exact .error (ends fault rfl)
  | ok result => exact later result

theorem EndsOnlyWith.map {allowed : ε → Prop} {computed : Except ε α} (f : α → β)
    (ends : EndsOnlyWith allowed computed) : EndsOnlyWith allowed (computed.map f) := by
  cases computed with
  | error fault => exact .error (ends fault rfl)
  | ok result => exact .ok (f result)

theorem EndsOnlyWith.mapError {allowed : ε → Prop} (computed : Except δ α) {f : δ → ε}
    (isAllowed : ∀ fault, allowed (f fault)) : EndsOnlyWith allowed (computed.mapError f) := by
  cases computed with
  | error fault => exact .error (isAllowed fault)
  | ok result => exact .ok result

theorem exists_of_map_eq_ok {computed : Except ε α} {f : α → β} {result : β}
    (mapped : computed.map f = .ok result) : ∃ found, computed = .ok found ∧ f found = result := by
  cases computed with
  | error fault => cases mapped
  | ok found =>
      cases mapped
      exact ⟨found, rfl, rfl⟩

end Rulebook
