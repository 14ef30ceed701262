import ChangeGate.Json.StringLiteral

/-! # The ends of strings

A string is read character by character, and two escaped halves of a surrogate pair are one character. Where
its value does not matter, each half is passed over alone and no value is looked up. Both ways come to the
same end (**`ignoreString_of_read`**). -/

namespace ChangeGate.Json

variable {t rest behind : Text}

/-! ## (1) Results with a rest -/

/-- A result that is changed keeps its rest. -/
theorem map_pair_eq_ok {α β : Type} {r : Except Fault (α × Text)} {g : α → β} {b : β}
    (h : (r.map fun (a, r) => (g a, r)) = .ok (b, rest)) : ∃ a, r = .ok (a, rest) ∧ g a = b := by
  cases r with
  | error f => exact absurd h (by simp [Except.map])
  | ok found =>
    obtain ⟨hb, hrest⟩ := Prod.mk.inj (Except.ok.inj h)
    exact ⟨found.1, by rw [← hrest], hb⟩

/-- A rest that is found behind a word is the rest of what the word stands for. -/
theorem map_word_eq_ok {β : Type} {r : Except Fault Text} {w b : β}
    (h : (r.map fun r => (w, r)) = .ok (b, rest)) : r = .ok rest ∧ w = b := by
  cases r with
  | error f => exact absurd h (by simp [Except.map])
  | ok found =>
    obtain ⟨hb, hrest⟩ := Prod.mk.inj (Except.ok.inj h)
    exact ⟨by rw [← hrest], hb⟩

/-! ## (2) Single steps -/

/-- **Some steps pass over a text** up to its rest when a string is ignored; each of them passes over a
character at least. -/
def StringSteps (t rest : Text) : Prop :=
  ∃ steps, 0 < steps ∧ rest.length + steps ≤ t.length ∧
    ∀ fuel, ignoreStringWithin (fuel + steps) t = ignoreStringWithin fuel rest

/-- A single step. -/
theorem StringSteps.single (hlength : rest.length < t.length)
    (h : ∀ fuel, ignoreStringWithin (fuel + 1) t = ignoreStringWithin fuel rest) : StringSteps t rest :=
  ⟨1, Nat.one_pos, hlength, h⟩

/-- Steps after steps. -/
theorem StringSteps.trans (h : StringSteps t behind) (h' : StringSteps behind rest) :
    StringSteps t rest := by
  obtain ⟨steps, hpos, hle, hsteps⟩ := h
  obtain ⟨steps', -, hle', hsteps'⟩ := h'
  refine ⟨steps' + steps, by omega, by omega, fun fuel => ?_⟩
  rw [← Nat.add_assoc, hsteps, hsteps']

/-- Four hexadecimal digits are four characters. -/
theorem hexFour_length {n : Nat} (h : hexFour t = .ok (n, rest)) : rest.length + 4 = t.length := by
  unfold hexFour at h
  split at h
  · exact absurd h (by simp)
  · split at h
    · split at h
      · obtain ⟨-, rfl⟩ := Prod.mk.inj (Except.ok.inj h)
        rfl
      · exact absurd h (by simp)
    · exact absurd h (by simp)

/-- Four digits behind their mark are passed over in one step, whatever their value is. -/
theorem stringSteps_of_hexFour {n : Nat} (h : hexFour t = .ok (n, rest)) :
    StringSteps ('\\' :: 'u' :: t) rest := by
  have hlength : rest.length + 4 = t.length := hexFour_length h
  refine .single (by simp only [List.length_cons]; omega) fun fuel => ?_
  rw [ignoreStringWithin, h]

/-- The halves of a surrogate pair are passed over one after the other. -/
theorem stringSteps_of_unicodeEscape {c : Char} (h : unicodeEscape t = .ok (c, rest)) :
    StringSteps ('\\' :: 'u' :: t) rest := by
  unfold unicodeEscape at h
  split at h
  · exact absurd h (by simp)
  · rename_i hfirst
    have hsteps := stringSteps_of_hexFour hfirst
    split at h
    · exact absurd h (by simp)
    · split at h
      · obtain ⟨-, rfl⟩ := Prod.mk.inj (Except.ok.inj h)
        exact hsteps
      · -- a leading half: the trailing one has to follow
        split at h
        · exact absurd h (by simp)
        · exact absurd h (by simp)
        · split at h
          · exact absurd h (by simp)
          · rename_i hsecond
            split at h
            · obtain ⟨-, rfl⟩ := Prod.mk.inj (Except.ok.inj h)
              exact hsteps.trans (stringSteps_of_hexFour hsecond)
            · exact absurd h (by simp)
        · exact absurd h (by simp)
        · exact absurd h (by simp)

/-- An escape of one letter is passed over in one step. -/
theorem ignoreStringWithin_letter {fuel : Nat} {letter : Char} (hu : letter ≠ 'u') (t : Text) :
    ignoreStringWithin (fuel + 1) ('\\' :: letter :: t) =
      if (simpleEscape? letter).isSome then ignoreStringWithin fuel t
      else .error (.past .invalidEscape (letter :: t)) := by
  rw [ignoreStringWithin]
  exact hu

/-- A character that is no mark is passed over in one step. -/
theorem ignoreStringWithin_plain {fuel : Nat} {c : Char} (hquote : c ≠ '"') (hslash : c ≠ '\\')
    (t : Text) : ignoreStringWithin (fuel + 1) (c :: t) =
      if c.toNat < 0x20 then .error (.before .controlCharacter (c :: t))
      else ignoreStringWithin fuel t := by
  rw [ignoreStringWithin]
  · exact hquote
  · exact fun hc _ => hslash hc
  · exact fun _ hc _ => hslash hc
  · exact fun _ _ hc _ => hslash hc

/-- An escape that is read is passed over. -/
theorem stringSteps_of_escapedChar {c : Char} (h : escapedChar t = .ok (c, rest)) :
    StringSteps ('\\' :: t) rest := by
  unfold escapedChar at h
  split at h
  · exact absurd h (by simp)
  · exact stringSteps_of_unicodeEscape h
  · rename_i letter behind hletter
    split at h
    · rename_i hsimple
      obtain ⟨-, rfl⟩ := Prod.mk.inj (Except.ok.inj h)
      refine .single (by simp only [List.length_cons]; omega) fun fuel => ?_
      rw [ignoreStringWithin_letter hletter, hsimple, Option.isSome_some, if_pos rfl]
    · exact absurd h (by simp)

/-- A character that is read is passed over. -/
theorem stringSteps_of_step {c : Char} (h : stringStep t = .ok (some c, rest)) :
    StringSteps t rest := by
  unfold stringStep at h
  split at h
  · exact absurd h (by simp)
  · exact absurd h (by simp)
  · obtain ⟨d, hescape, -⟩ := map_pair_eq_ok h
    exact stringSteps_of_escapedChar hescape
  · rename_i d behind hquote hslash
    split at h
    · exact absurd h (by simp)
    · rename_i hcontrol
      obtain ⟨-, rfl⟩ := Prod.mk.inj (Except.ok.inj h)
      refine .single (by simp) fun fuel => ?_
      rw [ignoreStringWithin_plain hquote hslash, if_neg hcontrol]

/-- A string ends with a quotation mark. -/
theorem stringStep_eq_none (h : stringStep t = .ok (none, rest)) : t = '"' :: rest := by
  unfold stringStep at h
  split at h
  · exact absurd h (by simp)
  · rw [(Prod.mk.inj (Except.ok.inj h)).2]
  · obtain ⟨d, -, hsome⟩ := map_pair_eq_ok h
    exact absurd hsome (by simp)
  · split at h
    · exact absurd h (by simp)
    · exact absurd h (by simp)

/-! ## (3) Whole strings -/

/-- A string that is read in some steps is passed over in some steps, both as many as it has characters at
most. -/
theorem ignoreStringWithin_of_read {fuel : Nat} {s : Text}
    (h : readStringWithin fuel t = .ok (s, rest)) :
    ∃ steps, 0 < steps ∧ rest.length + steps ≤ t.length ∧
      ∀ more, ignoreStringWithin (more + steps) t = .ok rest := by
  induction fuel generalizing t s with
  | zero => exact absurd h (by simp [readStringWithin])
  | succ fuel ih =>
    unfold readStringWithin at h
    split at h
    · exact absurd h (by simp)
    · rename_i hend
      obtain ⟨-, rfl⟩ := Prod.mk.inj (Except.ok.inj h)
      obtain rfl := stringStep_eq_none hend
      exact ⟨1, Nat.one_pos, Nat.le_refl _, fun more => rfl⟩
    · rename_i hstep
      obtain ⟨s, hread, -⟩ := map_pair_eq_ok h
      obtain ⟨steps, -, hle, hsteps⟩ := stringSteps_of_step hstep
      obtain ⟨steps', hpos', hle', hsteps'⟩ := ih hread
      refine ⟨steps' + steps, by omega, by omega, fun more => ?_⟩
      rw [← Nat.add_assoc, hsteps, hsteps']

/-- **A string that is read** ends where it ends if it is ignored. -/
theorem ignoreString_of_read {s : Text} (h : readString t = .ok (s, rest)) :
    ignoreString t = .ok rest ∧ rest.length < t.length := by
  obtain ⟨steps, hpos, hle, hsteps⟩ := ignoreStringWithin_of_read h
  have hfuel : t.length + 1 = (t.length + 1 - steps) + steps := by omega
  refine ⟨?_, by omega⟩
  rw [ignoreString, hfuel, hsteps]

end ChangeGate.Json
