import Rulebook.Proofs.Engine.Turn
import Rulebook.Proofs.Value.Paths

/-!
# Assignments

Assignments as writes at the end of a path. The fields and indices of a target, evaluated before the
write, lead to the same place whether the target is read or written, although the two go through it
in different orders.
-/

namespace Rulebook

/-- The part of a fact that a path leads to. -/
def Store.read (store : Store) (root : String) (path : List Step) : Except Expr.Fault Value :=
  match store.get? root with
  | some value => (value.follow path).mapError .part
  | none => .error (.unknownFact root)

namespace Expr

variable {store after : Store} {e target value : Expr} {root : String} {steps path : List Step}

/-- `LeadsTo store e root steps` means that an expression is a path from a fact over certain steps:
its fields, and its indices with the values that they have in a store. -/
inductive LeadsTo (store : Store) : Expr → String → List Step → Prop
  | fact (name : String) :
      LeadsTo store (fact name) name []
  | field {base : Expr} {root : String} {steps : List Step} (name : String) :
      LeadsTo store base root steps →
      LeadsTo store (field base name) root (steps ++ [.field name])
  | element {base index : Expr} {root : String} {steps : List Step} {x : Float} {place : Int} :
      LeadsTo store base root steps →
      index.eval store = .ok (.number x) →
      Number.whole? x = some place →
      LeadsTo store (element base index) root (steps ++ [.element place])

/-- An index is a number that stands for an integer. -/
theorem indexOf_eq_ok_iff {index : Value} {place : Int} :
    indexOf index = .ok place ↔ ∃ x, index = .number x ∧ Number.whole? x = some place := by
  cases index with
  | number x => cases whole : Number.whole? x <;> simp [indexOf, whole]
  | _ => simp [indexOf]

/-! ## Locating a target -/

private theorem leadsTo_of_locateBefore {behind found : List Step}
    (located : locateBefore store target e behind = .ok (root, found)) :
    ∃ steps, LeadsTo store e root steps ∧ found = steps ++ behind := by
  induction e generalizing behind with
  | fact name =>
      cases located
      exact ⟨[], .fact _, rfl⟩
  | field base name inductionHypothesis =>
      obtain ⟨steps, leads, isFound⟩ := inductionHypothesis located
      exact ⟨_, leads.field name, by rw [isFound, List.append_assoc]; rfl⟩
  | element base index inductionHypothesis _ =>
      obtain ⟨indexValue, isIndex, isPlace⟩ := bind_eq_ok_iff.1 located
      obtain ⟨place, isPlace, locatedBase⟩ := bind_eq_ok_iff.1 isPlace
      obtain ⟨x, rfl, whole⟩ := indexOf_eq_ok_iff.1 isPlace
      obtain ⟨steps, leads, isFound⟩ := inductionHypothesis locatedBase
      exact ⟨_, leads.element isIndex whole, by rw [isFound, List.append_assoc]; rfl⟩
  | _ => cases located

theorem LeadsTo.locateBefore (leads : LeadsTo store e root steps) (behind : List Step) :
    locateBefore store target e behind = .ok (root, steps ++ behind) := by
  induction leads generalizing behind with
  | fact name => rfl
  | field name _ inductionHypothesis =>
      rw [Expr.locateBefore, inductionHypothesis, List.append_assoc]
      rfl
  | element _ isIndex whole inductionHypothesis =>
      rw [Expr.locateBefore, isIndex, List.append_assoc]
      show (indexOf _ >>= _) = _
      rw [indexOf_eq_ok_iff.2 ⟨_, rfl, whole⟩]
      exact inductionHypothesis _

/-- A target is located exactly at the root and the steps that it leads to. -/
theorem locate_eq_ok_iff :
    target.locate store = .ok (root, steps) ↔ LeadsTo store target root steps := by
  constructor
  · intro located
    obtain ⟨found, leads, isFound⟩ := leadsTo_of_locateBefore located
    rw [isFound, List.append_nil]
    exact leads
  · intro leads
    rw [locate, leads.locateBefore, List.append_nil]

/-! ## Reading a path -/

theorem read_snoc (store : Store) (root : String) (steps : List Step) (step : Step) :
    store.read root (steps ++ [step]) =
      store.read root steps >>= fun found => (found.child step).mapError .part := by
  unfold Store.read
  cases store.get? root with
  | none => rfl
  | some value =>
      simp only [Value.follow_snoc]
      cases value.follow steps <;> rfl

/-- A path has the value of the part that it leads to. -/
theorem LeadsTo.eval_eq (leads : LeadsTo store e root steps) :
    e.eval store = store.read root steps := by
  induction leads with
  | fact name =>
      rw [eval, Store.read]
      cases store.get? name <;> rfl
  | field name _ inductionHypothesis =>
      rw [eval, inductionHypothesis, read_snoc]
      rfl
  | @element base index root steps x place _ isIndex whole inductionHypothesis =>
      rw [eval, inductionHypothesis, read_snoc]
      congr 1
      funext array
      cases array with
      | array items =>
          show (index.eval store >>= fun indexValue => indexOf indexValue >>= fun place =>
            ((Value.array items).element place).mapError .part) = _
          rw [isIndex]
          show (indexOf (.number x) >>= fun place =>
            ((Value.array items).element place).mapError .part) = _
          rw [indexOf_eq_ok_iff.2 ⟨x, rfl, whole⟩]
          rfl
      | _ => rfl

/-- A path that can be read leads somewhere. -/
theorem exists_leadsTo {result : Value} (isPath : e.isPath = true)
    (evaluated : e.eval store = .ok result) : ∃ root steps, LeadsTo store e root steps := by
  induction e generalizing result with
  | fact name => exact ⟨name, [], .fact name⟩
  | field base name inductionHypothesis =>
      obtain ⟨object, isObject, _⟩ := bind_eq_ok_iff.1 evaluated
      obtain ⟨root, steps, leads⟩ := inductionHypothesis isPath isObject
      exact ⟨root, _, leads.field name⟩
  | element base index inductionHypothesis _ =>
      obtain ⟨array, isArray, evaluated⟩ := bind_eq_ok_iff.1 evaluated
      obtain ⟨root, steps, leads⟩ := inductionHypothesis isPath isArray
      cases array with
      | array items =>
          obtain ⟨indexValue, isIndex, evaluated⟩ := bind_eq_ok_iff.1 evaluated
          obtain ⟨place, isPlace, _⟩ := bind_eq_ok_iff.1 evaluated
          obtain ⟨x, rfl, whole⟩ := indexOf_eq_ok_iff.1 isPlace
          exact ⟨root, _, leads.element isIndex whole⟩
      | _ => cases evaluated
  | _ => cases isPath

/-! ## Writing -/

/-- What a write at the end of a path does to a store: the value stands there, all other facts and
parts are as before, and the containers on the way keep their shape, but for a new last field. -/
structure WritesAt (store after : Store) (root : String) (steps : List Step) (written : Value) :
    Prop where
  here : after.read root steps = .ok written
  others : ∀ other, other ≠ root → after.get? other = store.get? other
  apart : ∀ path, ¬ path <+: steps → ¬ steps <+: path → after.read root path = store.read root path
  containers : ∀ before step behind, steps = before ++ step :: behind →
    ∃ container changed, store.read root before = .ok container ∧
      after.read root before = .ok changed ∧
      (container.SameShape changed ∨
        behind = [] ∧ ∃ name, step = .field name ∧ container.GainsField name changed)

theorem read_of_get? {found : Value} (isFact : store.get? root = some found) (path : List Step) :
    store.read root path = (found.follow path).mapError .part := by
  rw [Store.read, isFact]

private theorem exists_of_writeAt {written : Value} (isWritten : writeAt store root steps written = .ok after) :
    ∃ new, after = store.set root new ∧
      (steps = [] ∧ new = written ∨
        ∃ old, store.get? root = some old ∧ old.write steps written = .ok new) := by
  rw [writeAt.eq_def] at isWritten
  split at isWritten
  · cases isWritten
    exact ⟨written, rfl, .inl ⟨rfl, rfl⟩⟩
  · split at isWritten
    · cases isWritten
    · next old isFact =>
        obtain ⟨new, isNew, isSet⟩ := bind_eq_ok_iff.1 isWritten
        cases isSet
        exact ⟨new, rfl, .inr ⟨old, isFact, eq_ok_of_mapError isNew⟩⟩

private theorem writesAt_of_writeAt {written : Value}
    (isWritten : writeAt store root steps written = .ok after) :
    WritesAt store after root steps written := by
  obtain ⟨new, rfl, isNew⟩ := exists_of_writeAt isWritten
  have isFact : (store.set root new).get? root = some new := Table.get?_set_self _ _ _
  have others (other : String) (different : other ≠ root) :
      (store.set root new).get? other = store.get? other := Table.get?_set_of_ne _ _ different
  rcases isNew with ⟨rfl, rfl⟩ | ⟨old, isOld, isNew⟩
  · refine ⟨?_, others, fun path _ notBehind => absurd List.nil_prefix notBehind, ?_⟩
    · rw [read_of_get? isFact]
      rfl
    · intro before step behind isEmpty
      simp at isEmpty
  · refine ⟨?_, others, fun path notBefore notBehind => ?_, ?_⟩
    · rw [read_of_get? isFact]
      exact mapError_eq_ok (Value.follow_write_self isNew)
    · rw [read_of_get? isFact, read_of_get? isOld,
        Value.follow_write_apart isNew notBefore notBehind]
    · rintro before step behind rfl
      obtain ⟨container, changed, isContainer, isChanged, shape⟩ := Value.containers_of_write isNew
      refine ⟨container, changed, ?_, ?_, shape⟩
      · rw [read_of_get? isOld]
        exact mapError_eq_ok isContainer
      · rw [read_of_get? isFact]
        exact mapError_eq_ok isChanged

/-- Writing what is read at a place changes nothing. -/
theorem writeAt_of_read {found : Value} (isRead : store.read root steps = .ok found) :
    writeAt store root steps found = .ok store := by
  rw [Store.read] at isRead
  split at isRead
  · next old isFact =>
      have followed : old.follow steps = .ok found := eq_ok_of_mapError isRead
      have same : store.set root old = store := Table.set_eq_self isFact
      cases steps with
      | nil =>
          cases followed
          rw [writeAt, same]
      | cons step steps =>
          rw [writeAt, isFact]
          show (((old.write (step :: steps) found).mapError Fault.part) >>= fun new =>
            .ok (store.set root new)) = _
          rw [Value.write_follow followed]
          exact congrArg Except.ok same
          exact List.cons_ne_nil _ _
  · cases isRead

/-- An assignment that can be performed writes its value where its target leads to. One that cannot
leaves the store as it was. One of a path to itself can be performed wherever the path can be read,
and changes nothing. -/
theorem perform_assign_writesAt (store : Store) (target value : Expr) :
    (∀ after written?, (assign target value).perform store = .ok (after, written?) →
      ∃ root steps result, written? = some root ∧ LeadsTo store target root steps ∧
        value.eval store = .ok result ∧ WritesAt store after root steps result) ∧
    (∀ fault actions, (assign target value).perform store = .error fault →
      Run.performAll store (assign target value :: actions) = ⟨store, [], some fault⟩) ∧
    ∀ path result, path.isPath = true → path.eval store = .ok result →
      (assign path path).perform store = .ok (store, path.root?) := by
  refine ⟨fun after written? performed => ?_, fun fault actions failed => ?_,
    fun path result isPath evaluated => ?_⟩
  · obtain ⟨result, isValue, performed⟩ := bind_eq_ok_iff.1 performed
    obtain ⟨⟨root, steps⟩, located, performed⟩ := bind_eq_ok_iff.1 performed
    obtain ⟨updated, isWritten, performed⟩ := bind_eq_ok_iff.1 performed
    cases performed
    exact ⟨root, steps, result, rfl, locate_eq_ok_iff.1 located, isValue,
      writesAt_of_writeAt isWritten⟩
  · exact Run.performAll_cons_error failed actions
  · obtain ⟨root, steps, leads⟩ := exists_leadsTo isPath evaluated
    have located : path.locate store = .ok (root, steps) := locate_eq_ok_iff.2 leads
    have isRoot : path.root? = some root := root?_of_locateBefore located
    have isRead : store.read root steps = .ok result := leads.eval_eq.symm.trans evaluated
    rw [perform, isRoot]
    refine bind_eq_ok_iff.2 ⟨result, evaluated, bind_eq_ok_iff.2 ⟨(root, steps), located, ?_⟩⟩
    exact bind_eq_ok_iff.2 ⟨store, writeAt_of_read isRead, rfl⟩

/-- A fact with a list in it. -/
private def cart : Store :=
  (∅ : Store).set "cart" (.object [("items", .array [.number 1, .number 2])])

private def secondItem : Expr :=
  .element (.field (.fact "cart") "items") (.number 1)

/-- The second item is replaced, it cannot be replaced by a fact that there is none of, and it can be
assigned to itself. -/
theorem perform_assign_writesAt_cart :
    (∃ after root steps result,
      (assign secondItem (.bool true)).perform cart = .ok (after, some root) ∧
        LeadsTo cart secondItem root steps ∧ (bool true).eval cart = .ok result ∧
        WritesAt cart after root steps result) ∧
      Run.performAll cart [assign secondItem (.fact "none"), assign secondItem (.bool true)] =
        ⟨cart, [], some (.unknownFact "none")⟩ ∧
      (assign secondItem secondItem).perform cart = .ok (cart, some "cart") := by
  have performed : ((assign secondItem (.bool true)).perform cart).toOption.isSome = true := by
    decide +kernel
  have failed : (assign secondItem (.fact "none")).perform cart = .error (.unknownFact "none") :=
    rfl
  have isRead : (secondItem.eval cart).toOption.isSome = true := by decide +kernel
  refine ⟨?_, (perform_assign_writesAt cart secondItem (.fact "none")).2.1 _ _ failed, ?_⟩
  · cases ended : (assign secondItem (.bool true)).perform cart with
    | error fault =>
        rw [ended] at performed
        cases performed
    | ok result =>
        obtain ⟨root, steps, value, isRoot, leads, isValue, writes⟩ :=
          (perform_assign_writesAt cart secondItem (.bool true)).1 _ _ ended
        exact ⟨result.1, root, steps, value, by rw [← isRoot], leads, isValue, writes⟩
  · cases found : secondItem.eval cart with
    | error fault =>
        rw [found] at isRead
        cases isRead
    | ok result =>
        exact (perform_assign_writesAt cart secondItem (.bool true)).2.2 secondItem result rfl found

end Expr

end Rulebook
