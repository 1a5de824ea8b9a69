/-!
# Tables

Named entries in the order in which their names were first given. The operations are stated on
lists of entries, where an object value uses them too; `Table` adds that no name occurs twice.
-/

namespace Rulebook

universe u v

namespace Entries

variable {α : Type u}

def names (entries : List (String × α)) : List String :=
  entries.map Prod.fst

def get? (name : String) : List (String × α) → Option α
  | [] => none
  | (key, entry) :: rest => if key = name then some entry else get? name rest

/-- Gives a name an entry: in the place of its old one, or behind all others. -/
def set (name : String) (entry : α) : List (String × α) → List (String × α)
  | [] => [(name, entry)]
  | (key, old) :: rest =>
    if key = name then (key, entry) :: rest else (key, old) :: set name entry rest

def erase (name : String) : List (String × α) → List (String × α)
  | [] => []
  | (key, entry) :: rest => if key = name then rest else (key, entry) :: erase name rest

/-- Entries given one after another, a later one for a name in the place of the earlier. -/
def ofList (entries : List (String × α)) : List (String × α) :=
  entries.foldl (fun table entry => set entry.1 entry.2 table) []

@[simp] theorem names_nil : names ([] : List (String × α)) = [] := rfl

@[simp] theorem names_cons (entry : String × α) (rest : List (String × α)) :
    names (entry :: rest) = entry.1 :: names rest := rfl

theorem mem_names_set {other name : String} {entry : α} {entries : List (String × α)} :
    other ∈ names (set name entry entries) ↔ other = name ∨ other ∈ names entries := by
  induction entries with
  | nil => simp [set]
  | cons first rest inductionHypothesis =>
      by_cases same : first.1 = name
      · simp [set, same]
      · simp [set, same, inductionHypothesis, or_left_comm]

theorem nodup_set {name : String} {entry : α} {entries : List (String × α)}
    (distinct : (names entries).Nodup) : (names (set name entry entries)).Nodup := by
  induction entries with
  | nil => simp [set]
  | cons first rest inductionHypothesis =>
      obtain ⟨absent, distinctRest⟩ := List.nodup_cons.1 distinct
      by_cases same : first.1 = name
      · rw [set, if_pos same]
        exact List.nodup_cons.2 ⟨absent, distinctRest⟩
      · simp only [set, same, if_false, names_cons, List.nodup_cons]
        refine ⟨fun member => ?_, inductionHypothesis distinctRest⟩
        rcases mem_names_set.1 member with equal | member
        · exact same equal
        · exact absent member

theorem names_erase_sublist {name : String} {entries : List (String × α)} :
    (names (erase name entries)).Sublist (names entries) := by
  induction entries with
  | nil => exact List.Sublist.refl _
  | cons first rest inductionHypothesis =>
      by_cases same : first.1 = name
      · simp [erase, same]
      · simpa [erase, same] using inductionHypothesis

theorem nodup_erase {name : String} {entries : List (String × α)}
    (distinct : (names entries).Nodup) : (names (erase name entries)).Nodup :=
  List.Nodup.sublist names_erase_sublist distinct

theorem get?_set_self {name : String} {entry : α} {entries : List (String × α)} :
    get? name (set name entry entries) = some entry := by
  induction entries with
  | nil => simp [set, get?]
  | cons first rest inductionHypothesis =>
      by_cases same : first.1 = name <;> simp [set, get?, same, inductionHypothesis]

theorem get?_set_of_ne {name other : String} {entry : α} {entries : List (String × α)}
    (different : other ≠ name) : get? other (set name entry entries) = get? other entries := by
  induction entries with
  | nil => simp [set, get?, different.symm]
  | cons first rest inductionHypothesis =>
      by_cases same : first.1 = name
      · simp [set, get?, same, different.symm]
      · simp [set, get?, same, inductionHypothesis]

theorem get?_eq_none_iff {name : String} {entries : List (String × α)} :
    get? name entries = none ↔ name ∉ names entries := by
  induction entries with
  | nil => simp [get?]
  | cons first rest inductionHypothesis =>
      by_cases same : first.1 = name
      · simp [get?, same]
      · simp [get?, same, inductionHypothesis, Ne.symm same]

theorem get?_erase_self {name : String} {entries : List (String × α)}
    (distinct : (names entries).Nodup) : get? name (erase name entries) = none := by
  induction entries with
  | nil => rfl
  | cons first rest inductionHypothesis =>
      obtain ⟨absent, distinctRest⟩ := List.nodup_cons.1 distinct
      by_cases same : first.1 = name
      · simpa [erase, same, get?_eq_none_iff] using same ▸ absent
      · simpa [erase, get?, same] using inductionHypothesis distinctRest

theorem get?_erase_of_ne {name other : String} {entries : List (String × α)}
    (different : other ≠ name) : get? other (erase name entries) = get? other entries := by
  induction entries with
  | nil => rfl
  | cons first rest inductionHypothesis =>
      by_cases same : first.1 = name
      · simp [erase, get?, same, different.symm]
      · simp [erase, get?, same, inductionHypothesis]

end Entries

/-- Entries under distinct names, in the order in which the names were first given. -/
structure Table (α : Type u) where
  entries : List (String × α)
  distinct : (Entries.names entries).Nodup

namespace Table

variable {α : Type u} {β : Type v}

/-- No entries. -/
def empty : Table α :=
  ⟨[], List.nodup_nil⟩

instance : EmptyCollection (Table α) := ⟨empty⟩

instance : Inhabited (Table α) := ⟨empty⟩

/-- The names, in order. -/
def names (table : Table α) : List String :=
  Entries.names table.entries

/-- The number of entries. -/
def size (table : Table α) : Nat :=
  table.entries.length

def get? (table : Table α) (name : String) : Option α :=
  Entries.get? name table.entries

/-- Whether a name has an entry. -/
def contains (table : Table α) (name : String) : Bool :=
  (table.get? name).isSome

/-- Gives a name an entry: in the place of its old one, or behind all others. -/
def set (table : Table α) (name : String) (entry : α) : Table α :=
  ⟨Entries.set name entry table.entries, Entries.nodup_set table.distinct⟩

def erase (table : Table α) (name : String) : Table α :=
  ⟨Entries.erase name table.entries, Entries.nodup_erase table.distinct⟩

/-- The same names with other entries. -/
def map (table : Table α) (f : α → β) : Table β :=
  ⟨table.entries.map fun entry => (entry.1, f entry.2), by
    have keys : Entries.names (table.entries.map fun entry => (entry.1, f entry.2)) =
        Entries.names table.entries := by
      simp [Entries.names, Function.comp_def]
    exact keys ▸ table.distinct⟩

@[simp] theorem get?_empty (name : String) : (∅ : Table α).get? name = none := rfl

@[simp] theorem get?_set_self (table : Table α) (name : String) (entry : α) :
    (table.set name entry).get? name = some entry :=
  Entries.get?_set_self

theorem get?_set_of_ne (table : Table α) {name other : String} (entry : α)
    (different : other ≠ name) : (table.set name entry).get? other = table.get? other :=
  Entries.get?_set_of_ne different

@[simp] theorem get?_erase_self (table : Table α) (name : String) :
    (table.erase name).get? name = none :=
  Entries.get?_erase_self table.distinct

theorem get?_erase_of_ne (table : Table α) {name other : String} (different : other ≠ name) :
    (table.erase name).get? other = table.get? other :=
  Entries.get?_erase_of_ne different

theorem get?_map (table : Table α) (f : α → β) (name : String) :
    (table.map f).get? name = (table.get? name).map f := by
  obtain ⟨entries, distinct⟩ := table
  simp only [get?, map]
  clear distinct
  induction entries with
  | nil => rfl
  | cons first rest inductionHypothesis =>
      by_cases same : first.1 = name <;> simp [Entries.get?, same, inductionHypothesis]

end Table

end Rulebook
