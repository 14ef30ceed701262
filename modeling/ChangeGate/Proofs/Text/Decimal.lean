import ChangeGate.Text.Decimal
import Mathlib.Data.Nat.Digits.Defs

/-! # Decimal numerals are read back

A numeral consists of digits (**`isDigit_of_mem_ofNat`**), so it ends where the first other character
stands, and its digits have the value of the number (**`digitsValue_ofNat`**). -/

namespace ChangeGate.Text

/-- A digit is a digit of base ten, and its value is counted from zero. -/
theorem digit?_of_isDigit {c : Char} (h : c.isDigit = true) : digit? c = some (c.toNat - 48) := by
  have hbounds : '0' ≤ c ∧ c ≤ '9' := by
    rw [Char.isDigit, Bool.and_eq_true, decide_eq_true_iff, decide_eq_true_iff] at h
    exact h
  rw [digit?, if_pos hbounds]
  rfl

/-- The decimal digits are hexadecimal digits of the same value. -/
theorem hexDigit?_of_isDigit {c : Char} (h : c.isDigit = true) : hexDigit? c = some (c.toNat - 48) := by
  have hdigit := digit?_of_isDigit h
  rw [digit?, Option.ite_none_right_eq_some] at hdigit
  rw [hexDigit?, if_pos hdigit.1, hdigit.2]

/-- Every character of a numeral is a digit. -/
theorem char_isDigit_of_mem_ofNat {n : Nat} {c : Char} (h : c ∈ ofNat n) : c.isDigit = true :=
  Nat.isDigit_of_mem_toDigits (by decide) (by decide) h

/-- **A numeral consists of digits.** -/
theorem isDigit_of_mem_ofNat {n : Nat} {c : Char} (h : c ∈ ofNat n) : isDigit c = true := by
  rw [isDigit, digit?_of_isDigit (char_isDigit_of_mem_ofNat h)]
  rfl

/-- The value of some decimal digits, the ones before them taken into account. -/
theorem foldl_digits (ds : Text) (h : ∀ c ∈ ds, c.isDigit = true) (n : Nat) :
    ds.foldl (fun n c => n * 10 + (hexDigit? c).getD 0) n = Nat.ofDigitChars 10 ds n := by
  induction ds generalizing n with
  | nil => rfl
  | cons c ds ih =>
    have hvalue : hexDigit? c = some (c.toNat - 48) := hexDigit?_of_isDigit (h c List.mem_cons_self)
    rw [List.foldl_cons, ih fun d hd => h d (List.mem_cons_of_mem c hd), hvalue, Option.getD_some,
      Nat.ofDigitChars_cons, Nat.mul_comm]
    rfl

/-- **The digits of a numeral** have the value of its number. -/
theorem digitsValue_ofNat (n : Nat) : digitsValue 10 (ofNat n) = n := by
  rw [digitsValue, foldl_digits _ (fun c hc => char_isDigit_of_mem_ofNat hc)]
  exact Nat.ofDigitChars_toDigits (by decide) (by decide)

/-- Different numbers have different numerals. -/
theorem ofNat_injective : Function.Injective ofNat :=
  Function.LeftInverse.injective digitsValue_ofNat

variable {rest : Text}

/-- A numeral ends before the first character that is no digit. -/
theorem takeWhile_ofNat (n : Nat) (h : ∀ c, rest.head? = some c → isDigit c = false) :
    (ofNat n ++ rest).takeWhile isDigit = ofNat n := by
  have hrest : rest.takeWhile isDigit = [] := by
    cases rest with
    | nil => rfl
    | cons c rest => rw [List.takeWhile_cons_of_neg (by simp [h c rfl])]
  rw [List.takeWhile_append_of_pos fun c hc => isDigit_of_mem_ofNat hc, hrest, List.append_nil]

/-- What stands behind a numeral is what is left when its digits are dropped. -/
theorem dropWhile_ofNat (n : Nat) (h : ∀ c, rest.head? = some c → isDigit c = false) :
    (ofNat n ++ rest).dropWhile isDigit = rest := by
  rw [List.dropWhile_append_of_pos fun c hc => isDigit_of_mem_ofNat hc]
  cases rest with
  | nil => rfl
  | cons c rest => rw [List.dropWhile_cons_of_neg (by simp [h c rfl])]

end ChangeGate.Text
