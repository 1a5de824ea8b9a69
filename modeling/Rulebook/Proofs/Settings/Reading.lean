import Rulebook.Proofs.Settings.Counts
import Rulebook.Settings.Document

/-!
# Settings read from plain data

The data under each setting are checked on their own. All that is found is reported: for each
setting at most one fault, under its key and in the order of the settings, and then one for each key
that is no setting. Where nothing is found the settings are those of the data, with the standard
values for keys that are missing. So settings are read back from plain data that state them, in
numbers and truth values or in texts, and the standard ones may be left out.
-/

namespace Rulebook

/-- The name of a duplicate policy stands for it. -/
@[simp]
theorem DuplicatePolicy.ofName?_name (policy : DuplicatePolicy) :
    DuplicatePolicy.ofName? policy.name = some policy := by
  cases policy <;> decide

theorem DuplicatePolicy.name_injective {policy other : DuplicatePolicy}
    (names : policy.name = other.name) : policy = other := by
  have found := policy.ofName?_name
  rw [names, other.ofName?_name] at found
  exact (Option.some.inj found).symm

namespace Settings

variable {α : Type} {entries : List (Plain × Plain)} {key : String} {standard value : α}
  {read : Plain → Except Problem α} {settings : Settings} {fault : Fault} {faults : List Fault}

/-! ## Single settings -/

/-- A setting is what its entry is read as, or the standard one where there is no entry. -/
theorem setting_eq_ok_iff :
    setting entries key standard read = .ok value ↔
      (Plain.lookup? key entries = none ∧ value = standard) ∨
        ∃ datum, Plain.lookup? key entries = some datum ∧ read datum = .ok value := by
  unfold setting
  cases Plain.lookup? key entries with
  | none => simp [eq_comm]
  | some datum => cases outcome : read datum <;> simp [Except.mapError, outcome]

/-- The problem that the check of a setting finds in a datum, if it finds one. -/
def problem? (read : Plain → Except Problem α) (datum : Plain) : Option Problem :=
  match read datum with
  | .ok _ => none
  | .error problem => some problem

/-- The settings in their order, each with its check. -/
def checks : List (String × (Plain → Option Problem)) :=
  [("max_iterations", problem? toMaxPasses), ("duplicate_policy", problem? toPolicy),
    ("refraction", problem? toSwitch)]

/-- What a check finds under its key. -/
def settingFault? (entries : List (Plain × Plain)) (check : String × (Plain → Option Problem)) :
    Option Fault :=
  (Plain.lookup? check.1 entries).bind fun datum =>
    (check.2 datum).map fun problem => ⟨problem, some check.1⟩

private theorem faultOf_setting (entries : List (Plain × Plain)) (key : String) (standard : α)
    (read : Plain → Except Problem α) :
    faultOf (setting entries key standard read) =
      (settingFault? entries (key, problem? read)).toList := by
  unfold setting settingFault? problem?
  cases Plain.lookup? key entries with
  | none => rfl
  | some datum => cases outcome : read datum <;> simp [Except.mapError, faultOf, outcome]

private theorem exists_of_faultOf_eq_nil {outcome : Except Fault α} (none : faultOf outcome = []) :
    ∃ value, outcome = .ok value := by
  cases outcome with
  | ok value => exact ⟨value, rfl⟩
  | error fault => cases none

/-! ## All faults -/

/-- All that is wrong with the entries of a mapping as settings. -/
def faultsIn (entries : List (Plain × Plain)) : List Fault :=
  checks.filterMap (settingFault? entries) ++ entries.filterMap fun found => keyFault? found.1

/-- Whether a mapping states settings: nothing is wrong with it, and each setting has its value. -/
def States (entries : List (Plain × Plain)) (settings : Settings) : Prop :=
  setting entries "max_iterations" ⟨Settings.standard.maxPasses, Settings.standard.positive⟩
      toMaxPasses = .ok ⟨settings.maxPasses, settings.positive⟩ ∧
    setting entries "duplicate_policy" Settings.standard.duplicates toPolicy =
      .ok settings.duplicates ∧
    setting entries "refraction" Settings.standard.refraction toSwitch = .ok settings.refraction ∧
    ∀ found ∈ entries, keyFault? found.1 = none

private theorem faultsIn_eq (entries : List (Plain × Plain)) :
    faultsIn entries =
      faultOf (setting entries "max_iterations"
          ⟨Settings.standard.maxPasses, Settings.standard.positive⟩ toMaxPasses) ++
        faultOf (setting entries "duplicate_policy" Settings.standard.duplicates toPolicy) ++
        faultOf (setting entries "refraction" Settings.standard.refraction toSwitch) ++
        entries.filterMap fun found => keyFault? found.1 := by
  simp [faultsIn, checks, List.filterMap_eq_flatMap_toList, faultOf_setting]

private theorem ofPlain_mapping_cases (entries : List (Plain × Plain)) :
    (∃ settings, ofPlain (.mapping entries) = .ok settings ∧ States entries settings ∧
        faultsIn entries = []) ∨
      ofPlain (.mapping entries) = .error (faultsIn entries) ∧ faultsIn entries ≠ [] := by
  rw [faultsIn_eq]
  dsimp only [ofPlain]
  split
  · rename_i count policy holds counted named switched noExtra
    refine .inl ⟨_, rfl, ⟨counted, named, switched, List.filterMap_eq_nil_iff.mp noExtra⟩, ?_⟩
    rw [counted, named, switched, noExtra]
    rfl
  · rename_i notRead
    refine .inr ⟨rfl, fun noFaults => ?_⟩
    simp only [List.append_eq_nil_iff] at noFaults
    obtain ⟨⟨⟨noCountFault, noPolicyFault⟩, noSwitchFault⟩, noExtra⟩ := noFaults
    obtain ⟨count, counted⟩ := exists_of_faultOf_eq_nil noCountFault
    obtain ⟨policy, named⟩ := exists_of_faultOf_eq_nil noPolicyFault
    obtain ⟨holds, switched⟩ := exists_of_faultOf_eq_nil noSwitchFault
    exact notRead count policy holds counted named switched noExtra

/-- No mapping states different settings. -/
theorem States.unique {other : Settings} (states : States entries settings)
    (statesOther : States entries other) : settings = other := by
  obtain ⟨count, policy, switch, -⟩ := states
  obtain ⟨otherCount, otherPolicy, otherSwitch, -⟩ := statesOther
  rw [count] at otherCount
  rw [policy] at otherPolicy
  rw [switch] at otherSwitch
  cases settings
  cases other
  simp_all

theorem States.faultsIn_eq_nil (states : States entries settings) : faultsIn entries = [] := by
  obtain ⟨count, policy, switch, known⟩ := states
  rw [faultsIn_eq, count, policy, switch, List.filterMap_eq_nil_iff.mpr known]
  rfl

/-- Settings are read from exactly the mappings that state them. -/
theorem ofPlain_mapping_eq_ok_iff :
    ofPlain (.mapping entries) = .ok settings ↔ States entries settings := by
  rcases ofPlain_mapping_cases entries with ⟨found, read, states, -⟩ | ⟨refused, faulty⟩
  · rw [read, Except.ok.injEq]
    exact ⟨fun same => same ▸ states, fun other => states.unique other⟩
  · rw [refused]
    exact ⟨nofun, fun states => absurd states.faultsIn_eq_nil faulty⟩

/-- Where anything is wrong, all of it is reported. -/
theorem ofPlain_mapping_eq_error_iff :
    ofPlain (.mapping entries) = .error faults ↔ faults = faultsIn entries ∧ faults ≠ [] := by
  rcases ofPlain_mapping_cases entries with ⟨found, read, -, noFaults⟩ | ⟨refused, faulty⟩
  · rw [read, noFaults]
    exact ⟨nofun, fun ⟨empty, nonempty⟩ => absurd empty nonempty⟩
  · rw [refused, Except.error.injEq]
    exact ⟨fun same => same ▸ ⟨rfl, faulty⟩, fun ⟨same, _⟩ => same.symm⟩

/-! ## What a fault names -/

private theorem settingFault?_eq_some_iff {check : String × (Plain → Option Problem)} :
    settingFault? entries check = some fault ↔
      fault.key? = some check.1 ∧
        ∃ datum, Plain.lookup? check.1 entries = some datum ∧
          check.2 datum = some fault.problem := by
  obtain ⟨problem, key?⟩ := fault
  simp only [settingFault?, Option.bind_eq_some_iff, Option.map_eq_some_iff, Fault.mk.injEq]
  constructor
  · rintro ⟨datum, found, _, wrong, rfl, rfl⟩
    exact ⟨rfl, datum, found, wrong⟩
  · rintro ⟨rfl, datum, found, wrong⟩
    exact ⟨datum, found, problem, wrong, rfl, rfl⟩

theorem keyFault?_eq_none_iff {key : Plain} :
    keyFault? key = none ↔ ∃ name ∈ keys, key = .text name := by
  cases key <;> simp [keyFault?]

private theorem key?_of_keyFault? {key : Plain} (wrong : keyFault? key = some fault) :
    ∃ name, fault.key? = some name := by
  unfold keyFault? at wrong
  split at wrong
  · split at wrong
    · cases wrong
    · cases wrong
      exact ⟨_, rfl⟩
  · cases wrong
    exact ⟨_, rfl⟩

/-- A fault is one of a setting, whose check finds it in the datum under the key that it names, or
one of a key that is no setting. -/
theorem mem_faultsIn_iff :
    fault ∈ faultsIn entries ↔
      (∃ check ∈ checks, fault.key? = some check.1 ∧
          ∃ datum, Plain.lookup? check.1 entries = some datum ∧
            check.2 datum = some fault.problem) ∨
        ∃ found ∈ entries, keyFault? found.1 = some fault := by
  simp only [faultsIn, List.mem_append, List.mem_filterMap, settingFault?_eq_some_iff]

/-- Each fault in a mapping names a key. -/
theorem exists_key_of_mem_faultsIn (member : fault ∈ faultsIn entries) :
    ∃ name, fault.key? = some name := by
  rcases mem_faultsIn_iff.mp member with ⟨check, -, named, -⟩ | ⟨found, -, wrong⟩
  · exact ⟨check.1, named⟩
  · exact key?_of_keyFault? wrong

private theorem map_key?_sublist (checks : List (String × (Plain → Option Problem))) :
    ((checks.filterMap (settingFault? entries)).map Fault.key?).Sublist
      (checks.map fun check => some check.1) := by
  induction checks with
  | nil => exact .slnil
  | cons check checks inductionHypothesis =>
    cases found : settingFault? entries check with
    | none =>
      rw [List.filterMap_cons_none found]
      exact .cons _ inductionHypothesis
    | some fault =>
      rw [List.filterMap_cons_some found, List.map_cons, List.map_cons,
        (settingFault?_eq_some_iff.mp found).1]
      exact .cons_cons _ inductionHypothesis

/-- The faults of the settings come first, at most one for each setting and in their order. -/
theorem exists_faultsIn_eq_append (entries : List (Plain × Plain)) :
    ∃ own extra, faultsIn entries = own ++ extra ∧
      (own.map Fault.key?).Sublist (keys.map some) ∧
      ∀ fault ∈ extra, ∃ found ∈ entries, keyFault? found.1 = some fault :=
  ⟨_, _, rfl, map_key?_sublist checks, fun _ member => List.mem_filterMap.mp member⟩

/-! ## Settings written as plain data -/

/-- The entries that state settings. -/
def toEntries (settings : Settings) : List (Plain × Plain) :=
  [(.text "max_iterations", .integer settings.maxPasses),
    (.text "duplicate_policy", .text settings.duplicates.name),
    (.text "refraction", .bool settings.refraction)]

private theorem toMaxPasses_of_toCount {datum : Plain} {n : Nat} (positive : 0 < n)
    (count : toCount datum = .ok n) : toMaxPasses datum = .ok ⟨n, positive⟩ := by
  simp [toMaxPasses, count, positive]

private theorem toPolicy_name (policy : DuplicatePolicy) :
    toPolicy (.text policy.name) = .ok policy := by
  simp [toPolicy]

theorem mem_of_lookup? {datum : Plain} (found : Plain.lookup? key entries = some datum) :
    (.text key, datum) ∈ entries := by
  fun_induction Plain.lookup? key entries <;> simp_all

theorem notMem_of_lookup? (missing : Plain.lookup? key entries = none) (datum : Plain) :
    (.text key, datum) ∉ entries := by
  fun_induction Plain.lookup? key entries with
  | case1 => exact List.not_mem_nil
  | case2 => cases missing
  | case3 found other entries different inductionHypothesis =>
    rw [List.mem_cons, not_or]
    refine ⟨fun same => different ?_, inductionHypothesis missing⟩
    exact (Plain.text.inj (Prod.mk.inj same).1).symm
  | case4 entry entries notText inductionHypothesis =>
    rw [List.mem_cons, not_or]
    exact ⟨fun same => notText key datum same.symm, inductionHypothesis missing⟩

private theorem mem_count {datum : Plain} : (.text "max_iterations", datum) ∈ settings.toEntries ↔
    datum = .integer settings.maxPasses := by
  simp [toEntries]

private theorem mem_policy {datum : Plain} :
    (.text "duplicate_policy", datum) ∈ settings.toEntries ↔
      datum = .text settings.duplicates.name := by
  simp [toEntries]

private theorem mem_switch {datum : Plain} : (.text "refraction", datum) ∈ settings.toEntries ↔
    datum = .bool settings.refraction := by
  simp [toEntries]

/-- A setting is read from its datum if that is given, and else is the standard one. -/
private theorem setting_of_sublist {stated all : List (Plain × Plain)} {datum : Plain}
    (sublist : stated.Sublist all)
    (unique : ∀ {other}, (.text key, other) ∈ all → other = datum) (reads : read datum = .ok value)
    (missing : (.text key, datum) ∉ stated → value = standard) :
    setting stated key standard read = .ok value := by
  rw [setting_eq_ok_iff]
  cases found : Plain.lookup? key stated with
  | none => exact .inl ⟨rfl, missing (notMem_of_lookup? found datum)⟩
  | some other =>
    have same := unique (sublist.subset (mem_of_lookup? found))
    exact .inr ⟨other, rfl, same ▸ reads⟩

/-- Entries are enough to state settings if they are some of those that state them all and no
setting is missing but those with their standard values. -/
theorem states_of_sublist {stated : List (Plain × Plain)}
    (sublist : stated.Sublist settings.toEntries)
    (missing : ∀ entry ∈ settings.toEntries, entry ∉ stated →
      entry ∈ Settings.standard.toEntries) :
    States stated settings := by
  refine ⟨?count, ?policy, ?switch, ?known⟩
  case count =>
    refine setting_of_sublist sublist mem_count.mp
      (toMaxPasses_of_toCount settings.positive rfl) fun absent => ?_
    have same := mem_count.mp (missing _ (mem_count.mpr rfl) absent)
    simpa using same
  case policy =>
    refine setting_of_sublist sublist mem_policy.mp (toPolicy_name _) fun absent => ?_
    have same := mem_policy.mp (missing _ (mem_policy.mpr rfl) absent)
    exact DuplicatePolicy.name_injective (Plain.text.inj same)
  case switch =>
    refine setting_of_sublist sublist mem_switch.mp rfl fun absent => ?_
    have same := mem_switch.mp (missing _ (mem_switch.mpr rfl) absent)
    simpa using same
  case known =>
    intro found member
    have isKey := sublist.subset member
    simp only [toEntries, List.mem_cons, List.not_mem_nil, or_false] at isKey
    rcases isKey with rfl | rfl | rfl <;> rfl

/-- Settings are read back from the entries that state them. -/
theorem ofPlain_toEntries (settings : Settings) :
    ofPlain (.mapping settings.toEntries) = .ok settings :=
  ofPlain_mapping_eq_ok_iff.mpr
    (states_of_sublist (.refl _) fun _ member absent => absurd member absent)

/-- The standard settings pass their own checks, and need not be written. -/
theorem ofPlain_nil : ofPlain (.mapping []) = .ok Settings.standard :=
  ofPlain_mapping_eq_ok_iff.mpr (states_of_sublist (List.nil_sublist _) fun _ member _ => member)

/-! ## Settings written as texts -/

/-- A switch is read from the words for its state alone, in any case of their letters. -/
theorem readSwitch_eq_ok_iff {text : String} {holds : Bool} :
    readSwitch text = .ok holds ↔
      String.ofList (text.toList.map Char.toLower) ∈ if holds then onWords else offWords := by
  have apart : ∀ word ∈ onWords, word ∉ offWords := by decide
  dsimp only [readSwitch]
  cases holds <;> grind

/-- The entries that state settings by texts: the number of passes by one of the texts of its
number. -/
def toTextEntries (settings : Settings) (count switch : String) : List (Plain × Plain) :=
  [(.text "max_iterations", .text count),
    (.text "duplicate_policy", .text settings.duplicates.name),
    (.text "refraction", .text switch)]

/-- Settings are read back from texts as well, if the number of passes has no more digits than the
bound allows. -/
theorem ofPlain_toTextEntries {before after fraction : List Char} {plus : Bool} {zeros : Nat}
    {switch : String} (spaceBefore : ∀ c ∈ before, Text.isSpace c = true)
    (spaceAfter : ∀ c ∈ after, Text.isSpace c = true) (isFraction : IsZeroFraction fraction)
    (short : settings.maxPasses < 10 ^ Number.digitBound)
    (switched : readSwitch switch = .ok settings.refraction) :
    ofPlain (.mapping (settings.toTextEntries
      (String.ofList (before ++ (countText plus zeros settings.maxPasses fraction ++ after)))
        switch)) = .ok settings := by
  have count := readCount_countText (n := settings.maxPasses) plus zeros spaceBefore
    spaceAfter isFraction
  rw [if_neg (Nat.not_lt.mpr ((Number.length_digits_le_iff (by decide)).mpr short))] at count
  refine ofPlain_mapping_eq_ok_iff.mpr ⟨?count, ?policy, ?switch, ?known⟩
  case count =>
    have read : toMaxPasses (.text _) = .ok ⟨settings.maxPasses, settings.positive⟩ :=
      toMaxPasses_of_toCount settings.positive count
    exact setting_eq_ok_iff.mpr (.inr ⟨_, rfl, read⟩)
  case policy => exact setting_eq_ok_iff.mpr (.inr ⟨_, rfl, toPolicy_name _⟩)
  case switch => exact setting_eq_ok_iff.mpr (.inr ⟨_, rfl, switched⟩)
  case known => simp [toTextEntries, keyFault?, keys]

/-! ## Settings in documents -/

section Document

variable {text : String}

/-- Settings are read from a document exactly if it is a mapping and they are in its section. -/
theorem load_eq_ok_iff :
    load (some text) = .ok settings ↔
      ∃ entries, Yaml.read text = .ok (.mapping entries) ∧
        ofPlain (engineSection entries) = .ok settings := by
  dsimp only [load]
  split
  · rename_i read
    simp [read]
  · rename_i read
    simp [read]
  · rename_i entries read
    cases outcome : ofPlain (engineSection entries) <;> simp [read, outcome, Except.mapError]
  · rename_i datum _ notMapping read
    have noEntries (entries : List (Plain × Plain)) : datum ≠ .mapping entries := notMapping entries
    simp [read, noEntries]

/-- What stands beside the section for the engine is left aside. -/
theorem engineSection_eq_of_lookup? {others : List (Plain × Plain)} {datum : Plain}
    (here : Plain.lookup? "engine" entries = some datum)
    (there : Plain.lookup? "engine" others = some datum) :
    engineSection entries = engineSection others := by
  rw [engineSection, engineSection, here, there]

/-- Settings may be stated at the top of a document or in the section for the engine. -/
theorem load_of_stated (read : Yaml.read text = .ok (.mapping entries))
    (stated : entries = settings.toEntries ∨
      Plain.lookup? "engine" entries = some (.mapping settings.toEntries)) :
    load (some text) = .ok settings := by
  refine load_eq_ok_iff.mpr ⟨entries, read, ?_⟩
  have inSection : engineSection entries = .mapping settings.toEntries := by
    rcases stated with rfl | found
    · rfl
    · rw [engineSection, found]
      rfl
  rw [inSection, ofPlain_toEntries]

/-- A section with nothing in it leaves the standard settings. -/
theorem load_of_empty_section {datum : Plain} (read : Yaml.read text = .ok (.mapping entries))
    (found : Plain.lookup? "engine" entries = some datum) (empty : datum.isTruthy = false) :
    load (some text) = .ok Settings.standard := by
  refine load_eq_ok_iff.mpr ⟨entries, read, ?_⟩
  have inSection : engineSection entries = .mapping [] := by
    rw [engineSection, found]
    simp [empty]
  rw [inSection, ofPlain_nil]

end Document

end Settings

end Rulebook
