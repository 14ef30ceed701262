import ChangeGate.Text.Blank

/-! # Results and lists of keys

A computation that is made of others succeeds when these do (**`map_eq_ok`**, **`bind_eq_ok`**). What is
found for a key in a list of pairs is told after the pairs of a key are dropped
(**`lookup_filter_of_ne`**) and in a list that gives each key its value (**`lookup_map_of_mem`**). -/

namespace ChangeGate

/-! ## (1) Results -/

section Results

variable {ε α β : Type}

/-- A result is mapped to another one. -/
theorem map_eq_ok {f : α → β} {x : Except ε α} {b : β} :
    x.map f = .ok b ↔ ∃ a, x = .ok a ∧ f a = b := by
  cases x <;> simp [Except.map]

/-- A failure stays what it is when results are mapped. -/
theorem map_eq_error {f : α → β} {x : Except ε α} {e : ε} : x.map f = .error e ↔ x = .error e := by
  cases x <;> simp [Except.map]

/-- A computation that goes on from a result succeeds when both parts do. -/
theorem bind_eq_ok {f : α → Except ε β} {x : Except ε α} {b : β} :
    (x >>= f) = .ok b ↔ ∃ a, x = .ok a ∧ f a = .ok b := by
  cases x <;> simp [bind, Except.bind]

end Results

/-! ## (2) Lists of keys and values -/

namespace Text

variable {κ β : Type} [BEq κ] [LawfulBEq κ]

/-- Nothing is found for a key whose pairs are dropped. -/
theorem lookup_filter_self (key : κ) (l : List (κ × β)) :
    (l.filter fun e => e.1 != key).lookup key = none := by
  rw [List.lookup_eq_none_iff]
  intro e he
  simpa [bne, BEq.comm] using (List.mem_filter.mp he).2

/-- What is found for a key does not depend on the pairs of another one. -/
theorem lookup_filter_of_ne {key other : κ} (h : key ≠ other) (l : List (κ × β)) :
    (l.filter fun e => e.1 != other).lookup key = l.lookup key := by
  have hne : (key == other) = false := by simpa using h
  induction l with
  | nil => rfl
  | cons e l ih =>
    obtain ⟨k, v⟩ := e
    rw [List.filter_cons]
    by_cases hk : k = other
    · subst hk
      simpa [List.lookup_cons, hne] using ih
    · rw [if_pos (by simpa using hk), List.lookup_cons, List.lookup_cons, ih]

/-- A key that is given its value is found with it. -/
theorem lookup_map_of_mem (value : κ → β) {keys : List κ} {key : κ} (h : key ∈ keys) :
    (keys.map fun k => (k, value k)).lookup key = some (value key) := by
  induction keys with
  | nil => exact absurd h (by simp)
  | cons first keys ih =>
    rw [List.map_cons, List.lookup_cons]
    by_cases hkey : key = first
    · subst hkey
      simp
    · have hmem : key ∈ keys := (List.mem_cons.mp h).resolve_left hkey
      rw [show (key == first) = false by simpa using hkey]
      exact ih hmem

end Text

end ChangeGate
