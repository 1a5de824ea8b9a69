import Rulebook.Proofs.Computation
import Rulebook.Yaml.Document

/-!
# Nodes need no more depth than their tokens

Each node takes a token at least, and so does each item and entry of a collection. So the depth that
is allowed for the tokens of a document never runs out: with any greater one the same node is read,
or the same fault is found.
-/

namespace Rulebook.Yaml

variable {depth bound : Nat} {ahead behind : Ahead} {node : Node} {block underKey : Bool}
  {ends : List Token} {items : List Node} {entries : List (Node × Node)}

/-! ## Tokens that are left -/

@[simp]
theorem Ahead.tokens_after (ahead : Ahead) (tokens : List Token) :
    (ahead.after tokens).tokens = tokens :=
  rfl

@[simp]
theorem Ahead.tokens_name (ahead : Ahead) (name? : Option String) (node : Node) :
    (ahead.name name? node).tokens = ahead.tokens := by
  cases name? <;> rfl

private theorem length_lt_of_expect {token : Token} (found : ahead.expect token = .ok behind) :
    behind.tokens.length < ahead.tokens.length := by
  unfold Ahead.expect at found
  split at found
  · rename_i first rest begins
    split at found
    · cases found
      rw [begins]
      exact Nat.lt_succ_self _
    · cases found
  · cases found

private theorem isAt_singleton_iff {token : Token} :
    ahead.isAt [token] = true ↔ ∃ rest, ahead.tokens = token :: rest := by
  unfold Ahead.isAt
  split
  · rename_i found rest begins
    simp [begins]
  · rename_i ended
    simp [ended]

/-- An anchor and a tag take a token each. -/
private theorem length_takeProperties (ahead : Ahead) :
    (takeProperties ahead).2.tokens.length ≤ ahead.tokens.length ∧
      ((takeProperties ahead).1.anchor?.isSome ∨ (takeProperties ahead).1.tag?.isSome →
        (takeProperties ahead).2.tokens.length < ahead.tokens.length) := by
  unfold takeProperties
  split <;> simp_all <;> omega

/-- A collection, which is read twice if it has a name, takes as much as its members do. -/
private theorem length_lt_of_readNamed {α : Type} {name? : Option String} {empty : Node}
    {read : Ahead → Except Fault (α × Ahead)} {make : α → Node} {length : Nat}
    (shorter : ∀ {start found behind}, start.tokens = ahead.tokens →
      read start = .ok (found, behind) → behind.tokens.length < length)
    (found : readNamed name? empty ahead (fun start => do
      let (members, behind) ← read start
      .ok (make members, behind)) = .ok (node, behind)) :
    behind.tokens.length < length := by
  have once {start node behind} (sameTokens : start.tokens = ahead.tokens)
      (found : (do
        let (members, behind) ← read start
        .ok (make members, behind)) = Except.ok (ε := Fault) (node, behind)) :
      behind.tokens.length < length := by
    obtain ⟨⟨members, behindMembers⟩, readMembers, same⟩ := bind_eq_ok_iff.mp found
    cases same
    exact shorter sameTokens readMembers
  obtain ⟨⟨first, behindFirst⟩, readFirst, found⟩ := bind_eq_ok_iff.mp found
  have lt := once (ahead.tokens_name _ _) readFirst
  dsimp only at found
  split at found
  · obtain ⟨⟨last, behindLast⟩, readLast, same⟩ := bind_eq_ok_iff.mp found
    cases same
    rw [Ahead.tokens_name]
    exact once (ahead.tokens_name _ _) readLast
  · cases found
    rw [Ahead.tokens_name]
    exact lt

/-- A node of which nothing is written has an anchor or a tag. -/
private theorem nothing_shortens {handles : List (String × String)}
    (read : readNothing (takeProperties ahead).1.anchor?
      ((takeProperties ahead).1.tag?.bind (completeName? handles)) (takeProperties ahead).2 =
        .ok (node, behind))
    (lt : (takeProperties ahead).1.anchor?.isSome ∨ (takeProperties ahead).1.tag?.isSome →
      (takeProperties ahead).2.tokens.length < ahead.tokens.length) :
    behind.tokens.length < ahead.tokens.length := by
  unfold readNothing at read
  split at read
  · rename_i known
    cases read
    rw [Ahead.tokens_name]
    refine lt ?_
    simp only [Bool.or_eq_true] at known
    refine known.imp_right fun named => ?_
    obtain ⟨name, named⟩ := Option.isSome_iff_exists.mp named
    obtain ⟨tag, tagged, -⟩ := Option.bind_eq_some_iff.mp named
    exact Option.isSome_iff_exists.mpr ⟨tag, tagged⟩
  · cases read

private theorem length_le_of_behindMember {close : Token}
    (found : ahead.behindMember close = .ok behind) :
    behind.tokens.length ≤ ahead.tokens.length := by
  unfold Ahead.behindMember at found
  split at found
  · cases found
    exact Nat.le_refl _
  · exact Nat.le_of_lt (length_lt_of_expect found)

/-- What each reader leaves is shorter than what it began with, or not longer where it may take
nothing. -/
structure Shortens (depth : Nat) : Prop where
  node : ∀ {block underKey ahead node behind},
    readNode block underKey depth ahead = .ok (node, behind) →
      behind.tokens.length < ahead.tokens.length
  before : ∀ {block underKey ends ahead node behind},
    readNodeBefore block underKey ends depth ahead = .ok (node, behind) →
      behind.tokens.length ≤ ahead.tokens.length
  items : ∀ {ends items ahead found behind},
    readItems depth ends items ahead = .ok (found, behind) →
      behind.tokens.length ≤ ahead.tokens.length ∧
        (ahead.isAt [.entry] = true → behind.tokens.length < ahead.tokens.length)
  value : ∀ {block ends ahead node behind},
    readValue block ends depth ahead = .ok (node, behind) →
      behind.tokens.length ≤ ahead.tokens.length
  entries : ∀ {entries ahead found behind},
    readEntries depth entries ahead = .ok (found, behind) →
      behind.tokens.length < ahead.tokens.length
  flowItems : ∀ {items ahead found behind},
    readFlowItems depth items ahead = .ok (found, behind) →
      behind.tokens.length < ahead.tokens.length
  flowEntries : ∀ {entries ahead found behind},
    readFlowEntries depth entries ahead = .ok (found, behind) →
      behind.tokens.length < ahead.tokens.length

section Shorter

variable (shortens : Shortens depth)

include shortens

private theorem node_shortens
    (read : readNode block underKey (depth + 1) ahead = .ok (node, behind)) :
    behind.tokens.length < ahead.tokens.length := by
  obtain ⟨le, lt⟩ := length_takeProperties ahead
  rw [readNode] at read
  split at read
  · rename_i name rest begins
    split at read
    · cases read
      rw [begins]
      exact Nat.lt_succ_self _
    · cases read
  dsimp only at read
  split at read
  · cases read
  split at read
  · rename_i begins
    cases read
    rw [begins] at le
    rw [Ahead.tokens_name]
    exact le
  · rename_i begins
    cases read
    rw [begins] at le
    rw [Ahead.tokens_name]
    exact le
  · rename_i rest begins
    rw [begins] at le
    exact length_lt_of_readNamed (fun _ readItems =>
      Nat.lt_of_lt_of_le (shortens.flowItems readItems) (Nat.le_of_succ_le le)) read
  · rename_i rest begins
    rw [begins] at le
    exact length_lt_of_readNamed (fun _ readEntries =>
      Nat.lt_of_lt_of_le (shortens.flowEntries readEntries) (Nat.le_of_succ_le le)) read
  · rename_i token rest _ _ _ _ begins
    rw [begins] at le
    split at read
    · rename_i isEntry
      simp only [Bool.and_eq_true, decide_eq_true_eq] at isEntry
      refine length_lt_of_readNamed (fun start readItems => ?_) read
      have shorter := (shortens.items readItems).2
        (isAt_singleton_iff.mpr ⟨rest, start.trans (isEntry.2 ▸ begins)⟩)
      rw [start, begins] at shorter
      exact Nat.lt_of_lt_of_le shorter le
    split at read
    · refine length_lt_of_readNamed (fun _ readWhole => ?_) read
      obtain ⟨⟨found, behindFound⟩, readItems, readEnd⟩ := bind_eq_ok_iff.mp readWhole
      obtain ⟨behindEnd, ended, same⟩ := bind_eq_ok_iff.mp readEnd
      cases same
      have shorter := Nat.lt_of_lt_of_le (length_lt_of_expect ended) (shortens.items readItems).1
      exact Nat.lt_of_lt_of_le shorter (Nat.le_of_succ_le le)
    split at read
    · exact length_lt_of_readNamed (fun _ readEntries =>
        Nat.lt_of_lt_of_le (shortens.entries readEntries) (Nat.le_of_succ_le le)) read
    · exact nothing_shortens read lt
  · exact nothing_shortens read lt

private theorem before_shortens
    (read : readNodeBefore block underKey ends (depth + 1) ahead = .ok (node, behind)) :
    behind.tokens.length ≤ ahead.tokens.length := by
  rw [readNodeBefore] at read
  split at read
  · cases read
    exact Nat.le_refl _
  · exact Nat.le_of_lt (shortens.node read)

private theorem items_shorten {found : List Node}
    (read : readItems (depth + 1) ends items ahead = .ok (found, behind)) :
    behind.tokens.length ≤ ahead.tokens.length ∧
      (ahead.isAt [.entry] = true → behind.tokens.length < ahead.tokens.length) := by
  rw [readItems] at read
  split at read
  · rename_i rest begins
    obtain ⟨⟨item, behindItem⟩, readItem, read⟩ := bind_eq_ok_iff.mp read
    have item := shortens.before readItem
    have others := (shortens.items read).1
    rw [begins]
    have lt : behind.tokens.length < rest.length + 1 :=
      Nat.lt_succ_of_le (Nat.le_trans others item)
    exact ⟨Nat.le_of_lt lt, fun _ => lt⟩
  · rename_i notEntry
    cases read
    refine ⟨Nat.le_refl _, fun atEntry => ?_⟩
    obtain ⟨rest, begins⟩ := isAt_singleton_iff.mp atEntry
    exact absurd begins (notEntry rest)

private theorem value_shortens
    (read : readValue block ends (depth + 1) ahead = .ok (node, behind)) :
    behind.tokens.length ≤ ahead.tokens.length := by
  rw [readValue] at read
  split at read
  · rename_i rest begins
    rw [begins]
    exact Nat.le_succ_of_le (shortens.before read)
  · cases read
    exact Nat.le_refl _

private theorem entries_shorten {found : List (Node × Node)}
    (read : readEntries (depth + 1) entries ahead = .ok (found, behind)) :
    behind.tokens.length < ahead.tokens.length := by
  rw [readEntries] at read
  split at read
  · rename_i rest begins
    obtain ⟨⟨key, behindKey⟩, readKey, read⟩ := bind_eq_ok_iff.mp read
    obtain ⟨⟨value, behindValue⟩, readsValue, read⟩ := bind_eq_ok_iff.mp read
    have key := shortens.before readKey
    have value := shortens.value readsValue
    have others := shortens.entries read
    rw [begins]
    simp only [Ahead.tokens_after, List.length_cons] at *
    omega
  · obtain ⟨behindEnd, ended, same⟩ := bind_eq_ok_iff.mp read
    cases same
    exact length_lt_of_expect ended

private theorem flowItems_shorten {found : List Node}
    (read : readFlowItems (depth + 1) items ahead = .ok (found, behind)) :
    behind.tokens.length < ahead.tokens.length := by
  rw [readFlowItems] at read
  split at read
  · obtain ⟨behindEnd, ended, same⟩ := bind_eq_ok_iff.mp read
    cases same
    exact length_lt_of_expect ended
  dsimp only at read
  split at read
  · rename_i rest begins
    obtain ⟨⟨key, behindKey⟩, readKey, read⟩ := bind_eq_ok_iff.mp read
    obtain ⟨⟨value, behindValue⟩, readsValue, read⟩ := bind_eq_ok_iff.mp read
    obtain ⟨_, same, read⟩ := bind_eq_ok_iff.mp read
    cases same
    obtain ⟨next, behindMember, read⟩ := bind_eq_ok_iff.mp read
    have others :=
      Nat.lt_of_lt_of_le (shortens.flowItems read) (length_le_of_behindMember behindMember)
    have value := shortens.value readsValue
    have key := shortens.before readKey
    rw [begins]
    exact Nat.lt_succ_of_lt (Nat.lt_of_lt_of_le others (Nat.le_trans value key))
  · obtain ⟨⟨item, behindItem⟩, readItem, read⟩ := bind_eq_ok_iff.mp read
    obtain ⟨next, behindMember, read⟩ := bind_eq_ok_iff.mp read
    have others :=
      Nat.lt_of_lt_of_le (shortens.flowItems read) (length_le_of_behindMember behindMember)
    exact Nat.lt_trans others (shortens.node readItem)

private theorem flowEntries_shorten {found : List (Node × Node)}
    (read : readFlowEntries (depth + 1) entries ahead = .ok (found, behind)) :
    behind.tokens.length < ahead.tokens.length := by
  rw [readFlowEntries] at read
  split at read
  · obtain ⟨behindEnd, ended, same⟩ := bind_eq_ok_iff.mp read
    cases same
    exact length_lt_of_expect ended
  dsimp only at read
  split at read
  · rename_i rest begins
    obtain ⟨⟨key, behindKey⟩, readKey, read⟩ := bind_eq_ok_iff.mp read
    obtain ⟨⟨value, behindValue⟩, readsValue, read⟩ := bind_eq_ok_iff.mp read
    obtain ⟨_, same, read⟩ := bind_eq_ok_iff.mp read
    cases same
    obtain ⟨next, behindMember, read⟩ := bind_eq_ok_iff.mp read
    have others :=
      Nat.lt_of_lt_of_le (shortens.flowEntries read) (length_le_of_behindMember behindMember)
    have value := shortens.value readsValue
    have key := shortens.before readKey
    rw [begins]
    exact Nat.lt_succ_of_lt (Nat.lt_of_lt_of_le others (Nat.le_trans value key))
  · obtain ⟨⟨key, behindKey⟩, readKey, read⟩ := bind_eq_ok_iff.mp read
    obtain ⟨_, same, read⟩ := bind_eq_ok_iff.mp read
    cases same
    obtain ⟨next, behindMember, read⟩ := bind_eq_ok_iff.mp read
    have others :=
      Nat.lt_of_lt_of_le (shortens.flowEntries read) (length_le_of_behindMember behindMember)
    exact Nat.lt_trans others (shortens.node readKey)

end Shorter

private theorem shortens (depth : Nat) : Shortens depth := by
  induction depth with
  | zero =>
    constructor
    all_goals
      intros
      rename_i read
      cases read
  | succ depth shortens =>
    exact ⟨node_shortens shortens, before_shortens shortens, items_shorten shortens,
      value_shortens shortens, entries_shorten shortens, flowItems_shorten shortens,
      flowEntries_shorten shortens⟩

/-- A node takes a token at least. -/
theorem length_lt_of_readNode (read : readNode block underKey depth ahead = .ok (node, behind)) :
    behind.tokens.length < ahead.tokens.length :=
  (shortens depth).node read

/-! ## Depth that is enough -/

/-- With this depth each reader does what it does with a depth greater by one, if the tokens are few
enough. Four levels for each token are: for its node, for what stands before the node, for the
collection that it begins, and for a value under it. -/
structure Settled (depth : Nat) : Prop where
  node : ∀ {block underKey ahead}, 4 * ahead.tokens.length + 2 ≤ depth →
    readNode block underKey (depth + 1) ahead = readNode block underKey depth ahead
  before : ∀ {block underKey ends ahead}, 4 * ahead.tokens.length + 3 ≤ depth →
    readNodeBefore block underKey ends (depth + 1) ahead =
      readNodeBefore block underKey ends depth ahead
  items : ∀ {ends items ahead}, 4 * ahead.tokens.length + 1 ≤ depth →
    readItems (depth + 1) ends items ahead = readItems depth ends items ahead
  value : ∀ {block ends ahead}, 4 * ahead.tokens.length + 1 ≤ depth →
    readValue block ends (depth + 1) ahead = readValue block ends depth ahead
  entries : ∀ {entries ahead}, 4 * ahead.tokens.length + 1 ≤ depth →
    readEntries (depth + 1) entries ahead = readEntries depth entries ahead
  flowItems : ∀ {items ahead}, 4 * ahead.tokens.length + 3 ≤ depth →
    readFlowItems (depth + 1) items ahead = readFlowItems depth items ahead
  flowEntries : ∀ {entries ahead}, 4 * ahead.tokens.length + 3 ≤ depth →
    readFlowEntries (depth + 1) entries ahead = readFlowEntries depth entries ahead

/-- Computations that go on alike behind each result of the first are alike. -/
private theorem bind_congr_of_ok {ε α β : Type} (first : Except ε α)
    {second other : α → Except ε β}
    (alike : ∀ result, first = .ok result → second result = other result) :
    first >>= second = first >>= other := by
  cases first with
  | error fault => rfl
  | ok result => exact alike result rfl

private theorem readNamed_congr {name? : Option String} {empty : Node}
    {read other : Ahead → NodeResult}
    (alike : ∀ start : Ahead, start.tokens = ahead.tokens → read start = other start) :
    readNamed name? empty ahead read = readNamed name? empty ahead other := by
  unfold readNamed
  rw [alike _ (ahead.tokens_name _ _)]
  refine bind_congr_of_ok _ fun result _ => ?_
  dsimp only
  rw [alike _ (ahead.tokens_name _ _)]

section Deeper

variable (settled : Settled depth)

include settled

private theorem node_settled (enough : 4 * ahead.tokens.length + 2 ≤ depth + 1) :
    readNode block underKey (depth + 2) ahead = readNode block underKey (depth + 1) ahead := by
  have le := (length_takeProperties ahead).1
  rw [readNode, readNode]
  split
  · rfl
  dsimp only
  split
  · rfl
  split
  · rfl
  · rfl
  · rename_i rest begins
    rw [begins, List.length_cons] at le
    refine readNamed_congr fun start _ => ?_
    rw [settled.flowItems (by simp only [Ahead.tokens_after]; omega)]
  · rename_i rest begins
    rw [begins, List.length_cons] at le
    refine readNamed_congr fun start _ => ?_
    rw [settled.flowEntries (by simp only [Ahead.tokens_after]; omega)]
  · rename_i token rest _ _ _ _ begins
    rw [begins, List.length_cons] at le
    split
    · refine readNamed_congr fun start same => ?_
      rw [settled.items (by rw [same, begins, List.length_cons]; omega)]
    split
    · refine readNamed_congr fun start _ => ?_
      rw [settled.items (by simp only [Ahead.tokens_after]; omega)]
    split
    · refine readNamed_congr fun start _ => ?_
      rw [settled.entries (by simp only [Ahead.tokens_after]; omega)]
    · rfl
  · rfl

private theorem before_settled (enough : 4 * ahead.tokens.length + 3 ≤ depth + 1) :
    readNodeBefore block underKey ends (depth + 2) ahead =
      readNodeBefore block underKey ends (depth + 1) ahead := by
  rw [readNodeBefore, readNodeBefore, settled.node (by omega)]

private theorem items_settled (enough : 4 * ahead.tokens.length + 1 ≤ depth + 1) :
    readItems (depth + 2) ends items ahead = readItems (depth + 1) ends items ahead := by
  rw [readItems, readItems]
  split
  · rename_i rest begins
    rw [begins, List.length_cons] at enough
    rw [settled.before (by simp only [Ahead.tokens_after]; omega)]
    refine bind_congr_of_ok _ fun result read => ?_
    have shorter := (shortens depth).before read
    rw [Ahead.tokens_after] at shorter
    exact settled.items (by omega)
  · rfl

private theorem value_settled (enough : 4 * ahead.tokens.length + 1 ≤ depth + 1) :
    readValue block ends (depth + 2) ahead = readValue block ends (depth + 1) ahead := by
  rw [readValue, readValue]
  split
  · rename_i rest begins
    rw [begins, List.length_cons] at enough
    rw [settled.before (by simp only [Ahead.tokens_after]; omega)]
  · rfl

/-- A key and its value, and what is done with the rest. -/
private theorem pair_settled {β : Type} {blockKey underKey blockValue : Bool}
    {keyEnds valueEnds : List Token} {rest : List Token}
    {second other : Node × Ahead → Node × Ahead → Except Fault β}
    (enough : 4 * rest.length + 4 ≤ depth)
    (alike : ∀ key value, value.2.tokens.length ≤ rest.length →
      second key value = other key value) :
    (do
      let key ← readNodeBefore blockKey underKey keyEnds (depth + 1) (ahead.after rest)
      let value ← readValue blockValue valueEnds (depth + 1) key.2
      second key value) =
    (do
      let key ← readNodeBefore blockKey underKey keyEnds depth (ahead.after rest)
      let value ← readValue blockValue valueEnds depth key.2
      other key value) := by
  rw [settled.before (by simp only [Ahead.tokens_after]; omega)]
  refine bind_congr_of_ok _ fun key readKey => ?_
  have keyShorter := (shortens depth).before readKey
  rw [Ahead.tokens_after] at keyShorter
  rw [settled.value (by omega)]
  refine bind_congr_of_ok _ fun value readsValue => ?_
  exact alike key value (Nat.le_trans ((shortens depth).value readsValue) keyShorter)

private theorem entries_settled (enough : 4 * ahead.tokens.length + 1 ≤ depth + 1) :
    readEntries (depth + 2) entries ahead = readEntries (depth + 1) entries ahead := by
  rw [readEntries, readEntries]
  split
  · rename_i rest begins
    rw [begins, List.length_cons] at enough
    exact pair_settled settled (by omega) fun key value shorter => settled.entries (by omega)
  · rfl

private theorem flowItems_settled (enough : 4 * ahead.tokens.length + 3 ≤ depth + 1) :
    readFlowItems (depth + 2) items ahead = readFlowItems (depth + 1) items ahead := by
  rw [readFlowItems, readFlowItems]
  split
  · rfl
  dsimp only
  split
  · rename_i rest begins
    rw [begins, List.length_cons] at enough
    refine pair_settled settled (by omega) fun key value shorter =>
      bind_congr_of_ok (value.2.behindMember .closeBracket) fun next behindMember => ?_
    have fewer := length_le_of_behindMember behindMember
    exact settled.flowItems (by omega)
  · rw [settled.node (by omega)]
    refine bind_congr_of_ok _ fun item readItem => bind_congr_of_ok _ fun next behindMember => ?_
    have fewer := Nat.lt_of_le_of_lt (length_le_of_behindMember behindMember)
      ((shortens depth).node readItem)
    exact settled.flowItems (by omega)

private theorem flowEntries_settled (enough : 4 * ahead.tokens.length + 3 ≤ depth + 1) :
    readFlowEntries (depth + 2) entries ahead = readFlowEntries (depth + 1) entries ahead := by
  rw [readFlowEntries, readFlowEntries]
  split
  · rfl
  dsimp only
  split
  · rename_i rest begins
    rw [begins, List.length_cons] at enough
    refine pair_settled settled (by omega) fun key value shorter =>
      bind_congr_of_ok (value.2.behindMember .closeBrace) fun next behindMember => ?_
    have fewer := length_le_of_behindMember behindMember
    exact settled.flowEntries (by omega)
  · rw [settled.node (by omega)]
    refine bind_congr_of_ok _ fun key readKey =>
      bind_congr_of_ok (key.2.behindMember .closeBrace) fun next behindMember => ?_
    have fewer := Nat.lt_of_le_of_lt (length_le_of_behindMember behindMember)
      ((shortens depth).node readKey)
    exact settled.flowEntries (by omega)

end Deeper

private theorem settled (depth : Nat) : Settled depth := by
  induction depth with
  | zero =>
    constructor
    all_goals
      intros
      omega
  | succ depth settled =>
    exact ⟨node_settled settled, before_settled settled, items_settled settled,
      value_settled settled, entries_settled settled, flowItems_settled settled,
      flowEntries_settled settled⟩

/-- A node that is read with four levels for each token is read with any greater depth. -/
theorem readNode_eq_of_le {enough : Nat} (le : 4 * ahead.tokens.length + 2 ≤ enough)
    (deeper : enough ≤ depth) :
    readNode block underKey depth ahead = readNode block underKey enough ahead := by
  induction deeper with
  | refl => rfl
  | step deeper inductionHypothesis =>
    rw [(settled _).node (Nat.le_trans le deeper), inductionHypothesis]

/-- The depth that is allowed for a document is enough for its root. -/
theorem readRoot_eq_of_le {handles : List (String × String)} {tokens : List Token}
    (deeper : depthFor tokens ≤ depth) :
    readRoot handles tokens =
      (do
        let (node, behind) ← readNode true false depth ⟨tokens, handles, [], []⟩
        finishWith node behind) := by
  have le : 4 * tokens.length + 2 ≤ depthFor tokens := Nat.add_le_add_left (by decide) _
  rw [readNode_eq_of_le le deeper]
  rfl

end Rulebook.Yaml
