/-!
# Places in a text

Places in a text, counted in characters. Only a line feed begins a new line.
-/

namespace Rulebook.Text

/-- A place in a text: characters before it, its line and its column, the last two from one. -/
structure Position where
  offset : Nat
  line : Nat
  column : Nat
deriving DecidableEq, Repr, Inhabited

namespace Position

/-- Where a text begins. -/
def start : Position :=
  ⟨0, 1, 1⟩

def after (place : Position) (c : Char) : Position :=
  if c = '\n' then ⟨place.offset + 1, place.line + 1, 1⟩
  else ⟨place.offset + 1, place.line, place.column + 1⟩

def afterAll (place : Position) (cs : List Char) : Position :=
  cs.foldl after place

@[simp] theorem afterAll_nil (place : Position) : place.afterAll [] = place := rfl

@[simp] theorem afterAll_cons (place : Position) (c : Char) (cs : List Char) :
    place.afterAll (c :: cs) = (place.after c).afterAll cs := rfl

theorem afterAll_append (place : Position) (cs ds : List Char) :
    place.afterAll (cs ++ ds) = (place.afterAll cs).afterAll ds :=
  List.foldl_append

theorem offset_after (place : Position) (c : Char) :
    (place.after c).offset = place.offset + 1 := by
  unfold after
  split <;> rfl

theorem offset_afterAll (place : Position) (cs : List Char) :
    (place.afterAll cs).offset = place.offset + cs.length := by
  induction cs generalizing place with
  | nil => rfl
  | cons c cs inductionHypothesis =>
      rw [afterAll_cons, inductionHypothesis, offset_after, List.length_cons]
      omega

end Position

end Rulebook.Text
