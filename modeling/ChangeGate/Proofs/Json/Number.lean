import ChangeGate.Json.Number
import Mathlib.Data.List.Basic

/-! # The ends of numbers

A number is read digit by digit, and its value decides how many digits are taken at once; where its value
does not matter, all digits in a row are passed over. Both ways come to the same end, and a whole number that
is read fits into 64 bits (**`readNumber_spec`**). -/

namespace ChangeGate.Json

open Text (isDigit digit?)

/-! ## (1) Digits -/

/-- The digits that start a text are passed over. -/
@[simp] theorem skipDigits_snd (t : Text) : (skipDigits t).2 = t.dropWhile isDigit := rfl

@[simp] theorem startsWithDigit_nil : startsWithDigit [] = false := rfl

@[simp] theorem startsWithDigit_cons (c : Char) (t : Text) :
    startsWithDigit (c :: t) = isDigit c := rfl

/-- A character with the value of a digit is a digit. -/
theorem isDigit_of_digit? {c : Char} {d : Nat} (h : digit? c = some d) : isDigit c = true := by
  rw [isDigit, h]
  rfl

/-- The value of a digit is at most nine. -/
theorem digit?_le {c : Char} {d : Nat} (h : digit? c = some d) : d ≤ 9 := by
  unfold digit? at h
  split at h
  · rename_i hc
    have hd : c.toNat - 48 = d := Option.some.inj h
    have hhigh : c.toNat ≤ 57 := hc.2
    omega
  · exact absurd h (by simp)

/-- Nothing is passed over where no digit stands. -/
theorem dropWhile_of_not_digit {t : Text} (h : startsWithDigit t = false) :
    t.dropWhile isDigit = t := by
  cases t with
  | nil => rfl
  | cons c t =>
    rw [startsWithDigit_cons] at h
    rw [List.dropWhile_cons_of_neg (by simp [h])]

/-- **Taking the digits that fit** leaves the same text behind all digits; if none is taken, the text is as it
was, and otherwise it started with a digit. -/
theorem absorb_spec (n : Nat) (t : Text) :
    (absorb n t).2.2.dropWhile isDigit = t.dropWhile isDigit ∧
    ((absorb n t).2.1 = 0 ∧ (absorb n t).2.2 = t ∨ startsWithDigit t = true) ∧
    (n ≤ maxUnsigned → (absorb n t).1 ≤ maxUnsigned) := by
  induction t generalizing n with
  | nil => exact ⟨rfl, .inl ⟨rfl, rfl⟩, id⟩
  | cons c t ih =>
    unfold absorb
    cases hc : digit? c with
    | none => exact ⟨rfl, .inl ⟨rfl, rfl⟩, id⟩
    | some d =>
      have hdigit : isDigit c = true := isDigit_of_digit? hc
      dsimp only
      split
      · rename_i hfits
        obtain ⟨hrest, -, hle⟩ := ih (n * 10 + d)
        refine ⟨?_, .inr hdigit, fun _ => hle hfits⟩
        rw [List.dropWhile_cons_of_pos hdigit]
        exact hrest
      · exact ⟨rfl, .inl ⟨rfl, rfl⟩, id⟩

/-- The digits of an exponent are all passed over, unless it gets too large before their end. -/
theorem exponentDigits_spec (e : Nat) (t : Text) :
    (exponentDigits e t).2.dropWhile isDigit = t.dropWhile isDigit ∧
    ((exponentDigits e t).1 ≠ none → (exponentDigits e t).2 = t.dropWhile isDigit) := by
  induction t generalizing e with
  | nil => exact ⟨rfl, fun _ => rfl⟩
  | cons c t ih =>
    unfold exponentDigits
    cases hc : digit? c with
    | none =>
      have hnot : isDigit c = false := by rw [isDigit, hc]; rfl
      exact ⟨rfl, fun _ => (dropWhile_of_not_digit (by simp [hnot])).symm⟩
    | some d =>
      have hdigit : isDigit c = true := isDigit_of_digit? hc
      dsimp only
      split
      · rw [List.dropWhile_cons_of_pos hdigit]
        exact ih (e * 10 + d)
      · rw [List.dropWhile_cons_of_pos hdigit]
        exact ⟨rfl, fun h => absurd rfl h⟩

/-! ## (2) Fractions and exponents -/

variable {negative : Bool} {significand : Nat} {start : Int} {t rest : Text} {n : Number}

/-- A double is no whole number, and ends before what is left of the text. -/
theorem float_eq_ok {e : Int} (h : float negative significand e t = .ok (n, rest)) :
    (∃ x, n = .float x) ∧ rest = t := by
  unfold float at h
  split at h
  · obtain ⟨rfl, rfl⟩ := Prod.mk.inj (Except.ok.inj h)
    exact ⟨⟨_, rfl⟩, rfl⟩
  · exact absurd h (by simp)

/-- What follows an exponent that is read follows it as well if it is ignored. -/
theorem ignoreExponent_of_read (h : readExponent negative significand start t = .ok (n, rest)) :
    (∃ x, n = .float x) ∧ ignoreExponent t = .ok rest := by
  unfold readExponent at h
  unfold ignoreExponent
  generalize splitSign t = signed at h ⊢
  obtain ⟨down, t⟩ := signed
  dsimp only at h ⊢
  cases t with
  | nil => exact absurd h (by simp)
  | cons c t =>
    dsimp only at h
    cases hc : digit? c with
    | none =>
      rw [hc] at h
      exact absurd h (by simp)
    | some d =>
      have hdigit : isDigit c = true := isDigit_of_digit? hc
      rw [startsWithDigit_cons, if_pos hdigit, skipDigits_snd, List.dropWhile_cons_of_pos hdigit]
      rw [hc] at h
      dsimp only at h
      obtain ⟨hskipped, hall⟩ := exponentDigits_spec d t
      cases hexponent : exponentDigits d t with
      | mk e behind =>
        rw [hexponent] at h hskipped hall
        cases e with
        | some e =>
          obtain ⟨hfloat, rfl⟩ := float_eq_ok h
          exact ⟨hfloat, by rw [← hall (Option.some_ne_none e)]⟩
        | none =>
          -- the exponent is too large, and its other digits are passed over
          dsimp only at h
          split at h
          · exact absurd h (by simp)
          · obtain ⟨rfl, rfl⟩ := Prod.mk.inj (Except.ok.inj h)
            exact ⟨⟨_, rfl⟩, by rw [skipDigits_snd, hskipped]⟩

/-- What follows digits and an exponent that are read follows them as well if they are ignored. -/
theorem ignoreScale_of_read (h : readScale negative significand start t = .ok (n, rest)) :
    (∃ x, n = .float x) ∧ ignoreScale t = .ok rest := by
  unfold readScale at h
  unfold ignoreScale
  split at h
  · exact ignoreExponent_of_read h
  · exact ignoreExponent_of_read h
  · obtain ⟨hfloat, rfl⟩ := float_eq_ok h
    exact ⟨hfloat, rfl⟩

/-- What follows a fraction that is read follows it as well if it is ignored. -/
theorem ignoreTail_of_readFraction
    (h : readFraction negative significand start t = .ok (n, rest)) :
    (∃ x, n = .float x) ∧ ignoreTail ('.' :: t) = .ok rest := by
  unfold readFraction at h
  obtain ⟨hrest, hnone, -⟩ := absorb_spec significand t
  generalize absorb significand t = absorbed at h hrest hnone
  obtain ⟨m, k, behind⟩ := absorbed
  dsimp only at h hrest hnone
  -- in every case in which a number is read, a digit follows the point
  have htail : startsWithDigit t = true → ignoreTail ('.' :: t) = ignoreScale (t.dropWhile isDigit) := by
    intro hdigit
    rw [ignoreTail, if_pos hdigit, skipDigits_snd]
  split at h
  · rename_i hbehind
    obtain ⟨hfloat, hscale⟩ := ignoreScale_of_read h
    have hdigit : startsWithDigit t = true := by
      rcases hnone with ⟨-, rfl⟩ | hdigit
      · exact hbehind
      · exact hdigit
    exact ⟨hfloat, by rw [htail hdigit, ← hrest, ← skipDigits_snd, hscale]⟩
  · rename_i hbehind
    split at h
    · exact absurd h (by simp)
    · rename_i hk
      obtain ⟨hfloat, hscale⟩ := ignoreScale_of_read h
      have hdigit : startsWithDigit t = true := hnone.resolve_left fun hzero => hk hzero.1
      have hall : behind.dropWhile isDigit = behind :=
        dropWhile_of_not_digit (Bool.eq_false_iff.mpr hbehind)
      exact ⟨hfloat, by rw [htail hdigit, ← hrest, hall, hscale]⟩

/-! ## (3) Whole numbers -/

/-- What follows the first digits of a number that is read follows them as well if they are ignored. -/
theorem ignoreTail_of_read (h : readTail negative significand t = .ok (n, rest)) :
    ((∃ x, n = .float x) ∨ ∃ i : Int, n = .integer i ∧ i ≤ significand) ∧ ignoreTail t = .ok rest := by
  unfold readTail at h
  split at h
  · obtain ⟨hfloat, htail⟩ := ignoreTail_of_readFraction h
    exact ⟨.inl hfloat, htail⟩
  · obtain ⟨hfloat, hexponent⟩ := ignoreExponent_of_read h
    exact ⟨.inl hfloat, hexponent⟩
  · obtain ⟨hfloat, hexponent⟩ := ignoreExponent_of_read h
    exact ⟨.inl hfloat, hexponent⟩
  · rename_i hpoint hlower hupper
    have htail : ignoreTail t = .ok t := by
      unfold ignoreTail ignoreScale
      split
      · exact absurd rfl (hpoint _)
      · split
        · exact absurd rfl (hlower _)
        · exact absurd rfl (hupper _)
        · rfl
    split at h
    · obtain ⟨rfl, rfl⟩ := Prod.mk.inj (Except.ok.inj h)
      exact ⟨.inr ⟨_, rfl, Int.le_refl _⟩, htail⟩
    · split at h
      · obtain ⟨rfl, rfl⟩ := Prod.mk.inj (Except.ok.inj h)
        exact ⟨.inl ⟨_, rfl⟩, htail⟩
      · obtain ⟨rfl, rfl⟩ := Prod.mk.inj (Except.ok.inj h)
        exact ⟨.inr ⟨_, rfl, by omega⟩, htail⟩

/-- Without a point no fraction follows. -/
theorem ignoreTail_of_ne_point (h : ∀ more, t = '.' :: more → False) : ignoreTail t = ignoreScale t := by
  unfold ignoreTail
  split
  · exact (h _ rfl).elim
  · rfl

/-- **A number that is read** is a double or fits into 64 bits, and what follows it follows it as well if the
number is ignored. -/
theorem readNumber_spec (h : readNumber negative t = .ok (n, rest)) :
    ((∃ x, n = .float x) ∨ ∃ i : Int, n = .integer i ∧ i ≤ maxUnsigned) ∧
      ignoreNumber t = .ok rest := by
  unfold readNumber at h
  split at h
  · exact absurd h (by simp)
  · -- no digit may follow a zero
    rename_i t
    split at h
    · exact absurd h (by simp)
    · rename_i hdigit
      obtain ⟨hkind, htail⟩ := ignoreTail_of_read h
      refine ⟨?_, ?_⟩
      · rcases hkind with hfloat | ⟨i, rfl, hi⟩
        · exact .inl hfloat
        · exact .inr ⟨i, rfl, Int.le_trans hi (by decide)⟩
      · rw [ignoreNumber, if_neg hdigit, htail]
  · rename_i c t hzero
    cases hc : digit? c with
    | none =>
      rw [hc] at h
      exact absurd h (by simp)
    | some d =>
      rw [hc] at h
      dsimp only at h
      have hdigit : isDigit c = true := isDigit_of_digit? hc
      have hignore : ignoreNumber (c :: t) = ignoreTail (t.dropWhile isDigit) := by
        unfold ignoreNumber
        split
        · simp_all
        · rw [startsWithDigit_cons, if_pos hdigit, skipDigits_snd, List.dropWhile_cons_of_pos hdigit]
      obtain ⟨hrest, -, hle⟩ := absorb_spec d t
      generalize absorb d t = absorbed at h hrest hle
      obtain ⟨m, k, behind⟩ := absorbed
      dsimp only at h hrest hle
      split at h
      · -- some digits do not fit, so the number is a double
        rw [skipDigits_snd, hrest] at h
        rw [hignore]
        split at h
        · rename_i more hpoint
          obtain ⟨hfloat, htail⟩ := ignoreTail_of_readFraction h
          exact ⟨.inl hfloat, by rw [hpoint, htail]⟩
        · rename_i hpoint
          obtain ⟨hfloat, hscale⟩ := ignoreScale_of_read h
          exact ⟨.inl hfloat, by rw [ignoreTail_of_ne_point hpoint, hscale]⟩
      · -- all the digits fit
        rename_i hbehind
        have hall : behind.dropWhile isDigit = behind :=
          dropWhile_of_not_digit (Bool.eq_false_iff.mpr hbehind)
        obtain ⟨hkind, htail⟩ := ignoreTail_of_read h
        refine ⟨?_, by rw [hignore, ← hrest, hall, htail]⟩
        rcases hkind with hfloat | ⟨i, rfl, hi⟩
        · exact .inl hfloat
        · have hd : d ≤ maxUnsigned := Nat.le_trans (digit?_le hc) (by decide)
          have hm : m ≤ maxUnsigned := hle hd
          exact .inr ⟨i, rfl, by omega⟩

/-! ## (4) Lengths -/

theorem splitSign_length_le (t : Text) : (splitSign t).2.length ≤ t.length := by
  unfold splitSign
  split
  · exact Nat.le_succ _
  · exact Nat.le_succ _
  · exact Nat.le_refl _

theorem dropWhile_length_le (t : Text) : (t.dropWhile isDigit).length ≤ t.length :=
  (List.dropWhile_suffix isDigit).length_le

theorem ignoreExponent_length_le (h : ignoreExponent t = .ok rest) : rest.length ≤ t.length := by
  have hsign : (splitSign t).2.length ≤ t.length := splitSign_length_le t
  have hdigits := dropWhile_length_le (splitSign t).2
  unfold ignoreExponent at h
  dsimp only at h
  split at h
  · obtain rfl := Except.ok.inj h
    exact Nat.le_trans hdigits hsign
  · exact absurd h (by simp)

theorem ignoreScale_length_le (h : ignoreScale t = .ok rest) : rest.length ≤ t.length := by
  unfold ignoreScale at h
  split at h
  · exact Nat.le_succ_of_le (ignoreExponent_length_le h)
  · exact Nat.le_succ_of_le (ignoreExponent_length_le h)
  · obtain rfl := Except.ok.inj h
    exact Nat.le_refl _

theorem ignoreTail_length_le (h : ignoreTail t = .ok rest) : rest.length ≤ t.length := by
  unfold ignoreTail at h
  split at h
  · rename_i fraction
    split at h
    · have hscale := ignoreScale_length_le h
      exact Nat.le_succ_of_le (Nat.le_trans hscale (dropWhile_length_le fraction))
    · exact absurd h (by simp)
  · exact ignoreScale_length_le h

/-- A number that is ignored has a digit at least. -/
theorem ignoreNumber_length_lt (h : ignoreNumber t = .ok rest) : rest.length < t.length := by
  unfold ignoreNumber at h
  split at h
  · split at h
    · exact absurd h (by simp)
    · exact Nat.lt_succ_of_le (ignoreTail_length_le h)
  · split at h
    · rename_i hdigit
      have htail : rest.length ≤ (t.dropWhile isDigit).length := ignoreTail_length_le h
      cases t with
      | nil => exact absurd hdigit (by simp)
      | cons c t =>
        rw [startsWithDigit_cons] at hdigit
        rw [List.dropWhile_cons_of_pos hdigit] at htail
        exact Nat.lt_succ_of_le (Nat.le_trans htail (dropWhile_length_le t))
    · exact absurd h (by simp)

end ChangeGate.Json
