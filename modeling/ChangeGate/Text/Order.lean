import ChangeGate.Text.Blank

/-! # The order of texts

Texts are ordered by their first difference in characters, which is the order of their UTF-8 bytes.
**ascending** lists the texts of a list in that order without repetitions. -/

namespace ChangeGate.Text

/-- Whether a text comes strictly before another one. -/
def before : Text → Text → Bool
  | [], [] => false
  | [], _ :: _ => true
  | _ :: _, [] => false
  | c :: s, d :: t => c.toNat < d.toNat || (c == d && before s t)

/-- A text put into its place in an ascending list, unless it is there already. -/
def place (t : Text) : List Text → List Text
  | [] => [t]
  | u :: rest => if t = u then u :: rest else if before t u then t :: u :: rest else u :: place t rest

/-- The texts of a list in ascending order, each once. -/
def ascending (ts : List Text) : List Text := ts.foldr place []

@[simp] theorem ascending_nil : ascending [] = [] := rfl

@[simp] theorem ascending_cons (t : Text) (ts : List Text) :
    ascending (t :: ts) = place t (ascending ts) := rfl

/-- Putting a text into its place adds exactly that text. -/
theorem mem_place {t u : Text} {l : List Text} : u ∈ place t l ↔ u = t ∨ u ∈ l := by
  induction l with
  | nil => simp [place]
  | cons v rest ih =>
    simp only [place]
    split
    · next h => subst h; simp
    · split
      · simp
      · simp only [List.mem_cons, ih]
        constructor
        · rintro (h | h | h)
          · exact .inr (.inl h)
          · exact .inl h
          · exact .inr (.inr h)
        · rintro (h | h | h)
          · exact .inr (.inl h)
          · exact .inl h
          · exact .inr (.inr h)

/-- Ordering a list keeps its members. -/
@[simp] theorem mem_ascending {u : Text} {ts : List Text} : u ∈ ascending ts ↔ u ∈ ts := by
  induction ts with
  | nil => simp
  | cons t ts ih => simp [mem_place, ih]

end ChangeGate.Text
