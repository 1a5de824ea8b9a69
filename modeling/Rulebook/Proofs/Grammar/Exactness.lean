import Rulebook.Proofs.Grammar.Outcome

/-!
# Exact readers

Readers that look at no token behind the next one. Such a reader either takes some tokens and gives
what they write, or stops in front of a token that it blames; what it does with the tokens in front
of this place does not depend on those behind it. Sequences of readers are judged by their parts.
-/

namespace Rulebook.Grammar

open Text (Position)

abbrev lexemes (tokens : List Token) : List Lexeme :=
  tokens.map Token.lexeme

/-- What comes next depends only on the first token. -/
theorem next?_congr {tokens other : List Token} (same : other.head? = tokens.head?) :
    next? other = next? tokens := by
  rw [next?, next?, same]

theorem missing_congr (finish : Position) (what : Expectation) {tokens other : List Token}
    (same : other.head? = tokens.head?) :
    missing finish what other = missing finish what tokens := by
  cases tokens with
  | nil =>
      obtain rfl : other = [] := List.head?_eq_none_iff.1 same
      rfl
  | cons token rest =>
      obtain ⟨others, rfl⟩ := List.head?_eq_some_iff.1 same
      rfl

private theorem head?_append_congr {first rest other : List Token} (same : other.head? = rest.head?) :
    (first ++ other).head? = (first ++ rest).head? := by
  rw [List.head?_append, List.head?_append, same]

/-- A reader gives a result and the tokens behind those that it took. -/
abbrev Reader (α : Type) := List Token → Except Fault (α × List Token)

/-- `ExactOn accepts blames reader tokens` means that the reader splits the tokens at one place. It
takes those in front of it, and the split and the result are accepted; or it stops there, and the
split and the fault are what is blamed. With other tokens behind the next one it does the same. -/
inductive ExactOn {α : Type} (accepts : List Token → List Token → α → Prop)
    (blames : List Token → List Token → Fault → Prop) (reader : Reader α)
    (tokens : List Token) : Prop
  | takes (first rest : List Token) (value : α) :
      tokens = first ++ rest →
      accepts first rest value →
      (∀ other, other.head? = rest.head? → reader (first ++ other) = .ok (value, other)) →
      ExactOn accepts blames reader tokens
  | stops (first rest : List Token) (fault : Fault) :
      tokens = first ++ rest →
      blames first rest fault →
      (∀ other, other.head? = rest.head? → reader (first ++ other) = .error fault) →
      ExactOn accepts blames reader tokens

namespace ExactOn

variable {α β : Type} {accepts weaker : List Token → List Token → α → Prop}
  {blames blamesToo : List Token → List Token → Fault → Prop} {reader : Reader α}
  {tokens : List Token}

theorem of_ok (value : α) (same : ∀ other, other.head? = tokens.head? →
      reader other = .ok (value, other)) (accepted : accepts [] tokens value) :
    ExactOn accepts blames reader tokens :=
  .takes [] tokens value rfl accepted same

theorem of_error {fault : Fault} (same : ∀ other, other.head? = tokens.head? →
      reader other = .error fault) (blamed : blames [] tokens fault) :
    ExactOn accepts blames reader tokens :=
  .stops [] tokens fault rfl blamed same

/-- A reader that goes on as another one behind some tokens is exact where the other one is. -/
theorem after (first : List Token) {rest : List Token} {next : Reader α}
    (goesOn : ∀ other, other.head? = rest.head? → reader (first ++ other) = next other)
    (exact_ : ExactOn (fun more => accepts (first ++ more)) (fun more => blames (first ++ more))
      next rest) :
    ExactOn accepts blames reader (first ++ rest) := by
  have goesOnBehind (more last other : List Token) (split : rest = more ++ last)
      (same : other.head? = last.head?) :
      reader (first ++ more ++ other) = next (more ++ other) := by
    rw [List.append_assoc]
    exact goesOn _ (split ▸ head?_append_congr same)
  cases exact_ with
  | takes more last value split accepted same =>
      refine .takes (first ++ more) last value (by rw [split, List.append_assoc]) accepted ?_
      intro other sameHead
      rw [goesOnBehind more last other split sameHead]
      exact same other sameHead
  | stops more last fault split blamed same =>
      refine .stops (first ++ more) last fault (by rw [split, List.append_assoc]) blamed ?_
      intro other sameHead
      rw [goesOnBehind more last other split sameHead]
      exact same other sameHead

theorem congr {next : Reader α} (exact_ : ExactOn accepts blames next tokens)
    (same : ∀ other, other.head? = tokens.head? → reader other = next other) :
    ExactOn accepts blames reader tokens :=
  after [] same exact_

/-- Of two readers, one after the other, the second has to be exact behind what the first one
takes. -/
theorem bind {acceptsAll : List Token → List Token → β → Prop} (next : α → Reader β)
    (exact_ : ExactOn accepts blames reader tokens)
    (stopped : ∀ first rest fault, blames first rest fault → blamesToo first rest fault)
    (behind : ∀ first rest value, tokens = first ++ rest → accepts first rest value →
      ExactOn (fun more => acceptsAll (first ++ more)) (fun more => blamesToo (first ++ more))
        (next value) rest) :
    ExactOn acceptsAll blamesToo (fun tokens => reader tokens >>= fun (value, rest) =>
      next value rest) tokens := by
  cases exact_ with
  | takes first rest value split accepted same =>
      rw [split]
      refine after first ?_ (behind first rest value split accepted)
      intro other sameHead
      rw [same other sameHead]
      rfl
  | stops first rest fault split blamed same =>
      refine .stops first rest fault split (stopped first rest fault blamed) ?_
      intro other sameHead
      rw [same other sameHead]
      rfl

theorem map {acceptsResult : List Token → List Token → β → Prop} {f : α → β}
    (exact_ : ExactOn accepts blames reader tokens)
    (accepted : ∀ first rest value, accepts first rest value → acceptsResult first rest (f value))
    (stopped : ∀ first rest fault, blames first rest fault → blamesToo first rest fault) :
    ExactOn acceptsResult blamesToo
      (fun tokens => (reader tokens).map fun (value, rest) => (f value, rest)) tokens := by
  cases exact_ with
  | takes first rest value split isAccepted same =>
      refine .takes first rest (f value) split (accepted first rest value isAccepted) ?_
      intro other sameHead
      rw [same other sameHead]
      rfl
  | stops first rest fault split isBlamed same =>
      refine .stops first rest fault split (stopped first rest fault isBlamed) ?_
      intro other sameHead
      rw [same other sameHead]
      rfl

/-- Weakens what is said of the results and the faults. -/
theorem mono (exact_ : ExactOn accepts blames reader tokens)
    (accepted : ∀ first rest value, accepts first rest value → weaker first rest value)
    (stopped : ∀ first rest fault, blames first rest fault → blamesToo first rest fault) :
    ExactOn weaker blamesToo reader tokens := by
  cases exact_ with
  | takes first rest value split isAccepted same =>
      exact .takes first rest value split (accepted first rest value isAccepted) same
  | stops first rest fault split isBlamed same =>
      exact .stops first rest fault split (stopped first rest fault isBlamed) same

/-- What is accepted is what is read. -/
theorem read (exact_ : ExactOn accepts blames reader tokens) :
    ExactOn (fun first rest value => accepts first rest value ∧ reader tokens = .ok (value, rest))
      blames reader tokens := by
  cases exact_ with
  | takes first rest value split accepted same =>
      refine .takes first rest value split ⟨accepted, ?_⟩ same
      rw [split]
      exact same rest rfl
  | stops first rest fault split blamed same => exact .stops first rest fault split blamed same

/-- What an exact reader takes is accepted. -/
theorem accepts_of_eq_ok {value : α} {rest : List Token}
    (exact_ : ExactOn accepts blames reader tokens) (taken : reader tokens = .ok (value, rest)) :
    ∃ first, tokens = first ++ rest ∧ accepts first rest value := by
  cases exact_ with
  | takes first last found split accepted same =>
      have result := same last rfl
      rw [← split, taken] at result
      obtain ⟨rfl, rfl⟩ := Prod.mk.inj (Except.ok.inj result)
      exact ⟨first, split, accepted⟩
  | stops first last fault split blamed same =>
      have result := same last rfl
      rw [← split, taken] at result
      cases result

end ExactOn

/-! ## A lexeme that has to stand somewhere -/

/-- Whether reading over a certain lexeme is all that a function does; without it the function ends
with a fault at the token that stands there instead. -/
structure Expects (finish : Position) (lexeme : Lexeme) (what : Expectation)
    (reader : List Token → Except Fault (List Token)) : Prop where
  found : ∀ place rest, reader (⟨lexeme, place⟩ :: rest) = .ok rest
  notFound : ∀ tokens, next? tokens ≠ some lexeme →
    reader tokens = .error (missing finish what tokens)

theorem expects_symbol (finish : Position) (sign : Symbol) (what : Expectation) :
    Expects finish (.symbol sign) what (symbol finish sign what) := by
  refine ⟨fun place rest => if_pos rfl, fun tokens different => ?_⟩
  cases tokens with
  | nil => rfl
  | cons token rest => exact if_neg (by simpa [next?] using different)

theorem expects_keyword (finish : Position) (word : Keyword) (what : Expectation) :
    Expects finish (.keyword word) what (keyword finish word what) := by
  refine ⟨fun place rest => if_pos rfl, fun tokens different => ?_⟩
  cases tokens with
  | nil => rfl
  | cons token rest => exact if_neg (by simpa [next?] using different)

theorem exists_of_next?_eq_some {tokens : List Token} {lexeme : Lexeme}
    (stands : next? tokens = some lexeme) : ∃ place rest, tokens = ⟨lexeme, place⟩ :: rest := by
  cases tokens with
  | nil => cases stands
  | cons token rest =>
      obtain rfl : token.lexeme = lexeme := Option.some.inj stands
      exact ⟨token.place, rest, rfl⟩

section Expected

variable {α : Type} {accepts : List Token → List Token → α → Prop}
  {blames : List Token → List Token → Fault → Prop} {tokens : List Token} {finish : Position}
  {lexeme : Lexeme} {what : Expectation} {reader : List Token → Except Fault (List Token)}

theorem ExactOn.expect {next : Reader α} (expects : Expects finish lexeme what reader)
    (blamed : blames [] tokens (missing finish what tokens))
    (behind : ∀ place rest, tokens = ⟨lexeme, place⟩ :: rest →
      ExactOn (fun more => accepts (⟨lexeme, place⟩ :: more))
        (fun more => blames (⟨lexeme, place⟩ :: more)) next rest) :
    ExactOn accepts blames (fun tokens => reader tokens >>= next) tokens := by
  by_cases stands : next? tokens = some lexeme
  · obtain ⟨place, rest, rfl⟩ := exists_of_next?_eq_some stands
    refine ExactOn.after [⟨lexeme, place⟩] ?_ (behind place rest rfl)
    intro other _
    rw [List.singleton_append, expects.found]
    rfl
  · refine .of_error ?_ blamed
    intro other same
    rw [expects.notFound other (next?_congr same ▸ stands), missing_congr finish what same]
    rfl

/-- A lexeme that has to stand behind something that was read. -/
theorem ExactOn.closing (expects : Expects finish lexeme what reader) (value : α)
    (blamed : blames [] tokens (missing finish what tokens))
    (accepted : ∀ place rest, accepts [⟨lexeme, place⟩] rest value) :
    ExactOn accepts blames (fun tokens => (reader tokens).map fun last => (value, last))
      tokens := by
  have exact_ : ExactOn accepts blames
      (fun tokens => reader tokens >>= fun last => .ok (value, last)) tokens :=
    .expect expects blamed fun place rest _ => .of_ok value (fun _ _ => rfl) (accepted place rest)
  refine exact_.congr fun other _ => ?_
  cases reader other <;> rfl

end Expected

end Rulebook.Grammar
