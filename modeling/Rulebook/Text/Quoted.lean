/-!
# Quoted texts

Quoted texts of the rule language: a text stands between double quotes, a double quote inside it
is written with a backslash before it, and every other character stands for itself. A backslash
at the end of a text would escape the closing quote, so such a text has no written form.
-/

namespace Rulebook.Text

/-- A text that can be written between double quotes: it does not end in a backslash. -/
structure Quotable where
  text : String
  closes : text.toList.getLast? ≠ some '\\'
deriving DecidableEq

namespace Quotable

/-- The text as a quotable one, unless it ends in a backslash. -/
def of? (text : String) : Option Quotable :=
  if closes : text.toList.getLast? ≠ some '\\' then some ⟨text, closes⟩ else none

theorem of?_text (quotable : Quotable) : of? quotable.text = some quotable := by
  simp only [of?, dif_pos quotable.closes]

/-- Each double quote with a backslash before it. -/
def escape : List Char → List Char
  | [] => []
  | c :: cs => if c = '"' then '\\' :: '"' :: escape cs else c :: escape cs

def written (quotable : Quotable) : String :=
  String.ofList ('"' :: (escape quotable.text.toList ++ ['"']))

end Quotable

/-- Reads what follows an opening quote up to the closing one: the text that was written, and how
many characters were read with the closing quote. `none` when no quote closes the text. -/
def readQuoted? : List Char → Option (List Char × Nat)
  | [] => none
  | '\\' :: '"' :: cs => (readQuoted? cs).map fun (text, length) => ('"' :: text, length + 2)
  | c :: cs =>
    if c = '"' then some ([], 1)
    else (readQuoted? cs).map fun (text, length) => (c :: text, length + 1)

/-- A text that was read between quotes is quotable. -/
theorem getLast?_readQuoted? {cs text : List Char} {length : Nat}
    (closed : readQuoted? cs = some (text, length)) : text.getLast? ≠ some '\\' := by
  fun_induction readQuoted? cs generalizing text length with
  | case1 => simp at closed
  | case2 cs inductionHypothesis =>
      simp only [Option.map_eq_some_iff, Prod.mk.injEq] at closed
      obtain ⟨⟨inner, taken⟩, read, rfl, _⟩ := closed
      cases inner with
      | nil => simp
      | cons d ds =>
          rw [List.getLast?_cons_cons]
          exact inductionHypothesis read
  | case3 => simp_all
  | case4 c cs notEscaped notQuote inductionHypothesis =>
      simp only [Option.map_eq_some_iff, Prod.mk.injEq] at closed
      obtain ⟨⟨inner, taken⟩, read, rfl, _⟩ := closed
      cases inner with
      | nil =>
          intro last
          simp only [List.getLast?_singleton, Option.some.injEq] at last
          subst last
          cases cs with
          | nil => simp [readQuoted?] at read
          | cons d ds =>
              by_cases quote : d = '"'
              · subst quote
                exact notEscaped ds rfl rfl
              · rw [readQuoted?.eq_def] at read
                split at read
                · simp at read
                · simp [Option.map_eq_some_iff] at read
                · rename_i d' ds' _ same
                  injection same with sameHead sameTail
                  subst sameHead
                  simp [quote, Option.map_eq_some_iff] at read
      | cons d ds =>
          rw [List.getLast?_cons_cons]
          exact inductionHypothesis read

/-- The text between two quotes, with the number of characters read behind the opening quote. -/
def quotedText? (cs : List Char) : Option (Quotable × Nat) :=
  match closed : readQuoted? cs with
  | none => none
  | some (text, length) =>
    some (⟨String.ofList text, by
      rw [String.toList_ofList]
      exact getLast?_readQuoted? closed⟩, length)

end Rulebook.Text
