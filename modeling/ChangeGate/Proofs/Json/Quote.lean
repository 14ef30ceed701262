import ChangeGate.Report.Json
import ChangeGate.Json.StringLiteral
import ChangeGate.Proofs.Text.Utf8
import Mathlib.Tactic.SplitIfs

/-! # Strings that are written and read back

Every character has one form in a string of JSON: it stands for itself, or it is escaped by a letter or by
its number. Whichever form is written, one step of reading gives the character back
(**`stringStep_quoteChar`**), so a text that is written as a string is read as the same text, whatever
follows it (**`readString_quoteBody`**). -/

namespace ChangeGate.Json

variable {c : Char}

/-! ## (1) Escapes by a letter -/

/-- A letter that stands for a character is read as that character. -/
theorem stringStep_letter {letter : Char} (hu : letter ≠ 'u') (h : simpleEscape? letter = some c)
    (rest : Text) : stringStep ('\\' :: letter :: rest) = .ok (some c, rest) := by
  have hescape : escapedChar (letter :: rest) = .ok (c, rest) := by
    rw [escapedChar, h]
    exact hu
  rw [stringStep, hescape]
  rfl

/-! ## (2) Escapes by a number -/

/-- The numerals of the numbers that need one digit at most, with their digit. -/
theorem hexDigit?_digitChar {n : Nat} (h : n < 16) : Text.hexDigit? (Nat.digitChar n) = some n := by
  have hall : ∀ m : Fin 16, Text.hexDigit? (Nat.digitChar m) = some m.val := by decide
  exact hall ⟨n, h⟩

/-- The number of a control character has two digits at most, and zeros fill it up. -/
theorem zeroPad_toDigits {n : Nat} (h : n < 0x20) :
    Text.zeroPad 4 (Nat.toDigits 16 n) = ['0', '0', Nat.digitChar (n / 16), Nat.digitChar (n % 16)] := by
  have hall : ∀ m : Fin 0x20, Text.zeroPad 4 (Nat.toDigits 16 m) =
      ['0', '0', Nat.digitChar (m / 16), Nat.digitChar (m % 16)] := by decide
  exact hall ⟨n, h⟩

/-- Four hexadecimal digits are read as their value. -/
theorem hexFour_digits {a b c d : Char} {w x y z : Nat} (ha : Text.hexDigit? a = some w)
    (hb : Text.hexDigit? b = some x) (hc : Text.hexDigit? c = some y) (hd : Text.hexDigit? d = some z)
    (rest : Text) :
    hexFour (a :: b :: c :: d :: rest) = .ok (((w * 16 + x) * 16 + y) * 16 + z, rest) := by
  have hlength : ¬ Text.byteLength (a :: b :: c :: d :: rest) < 4 := by
    have hle := Text.length_le_byteLength (a :: b :: c :: d :: rest)
    simp only [List.length_cons] at hle
    omega
  rw [hexFour, if_neg hlength]
  simp [ha, hb, hc, hd, Text.digitsValue]

/-- A control character is read from its number. -/
theorem stringStep_number (h : c.toNat < 0x20) (rest : Text) :
    stringStep ("\\u".toList ++ Text.zeroPad 4 (Nat.toDigits 16 c.toNat) ++ rest) =
      .ok (some c, rest) := by
  have hzero : Text.hexDigit? '0' = some 0 := rfl
  have hdigits := hexFour_digits hzero hzero (hexDigit?_digitChar (n := c.toNat / 16) (by omega))
    (hexDigit?_digitChar (n := c.toNat % 16) (by omega)) rest
  have hvalue : ((0 * 16 + 0) * 16 + c.toNat / 16) * 16 + c.toNat % 16 = c.toNat := by omega
  have hlow : isLowSurrogate c.toNat = false := by
    rw [isLowSurrogate, Bool.and_eq_false_iff, decide_eq_false_iff_not]
    exact .inl (by omega)
  have hhigh : isHighSurrogate c.toNat = false := by
    rw [isHighSurrogate, Bool.and_eq_false_iff, decide_eq_false_iff_not]
    exact .inl (by omega)
  rw [hvalue] at hdigits
  rw [zeroPad_toDigits h]
  -- no control character is half of a surrogate pair
  have hescape : unicodeEscape
      ('0' :: '0' :: Nat.digitChar (c.toNat / 16) :: Nat.digitChar (c.toNat % 16) :: rest) =
      .ok (c, rest) := by
    rw [unicodeEscape, hdigits]
    simp only [hlow, hhigh, Bool.false_eq_true, if_false, Bool.not_false, if_true, Char.ofNat_toNat]
  change stringStep ('\\' :: 'u' :: '0' :: '0' :: Nat.digitChar (c.toNat / 16) ::
    Nat.digitChar (c.toNat % 16) :: rest) = _
  rw [stringStep, escapedChar, hescape]
  rfl

/-! ## (3) Characters and texts -/

/-- **Each character is read back** from the form in which it is written. -/
theorem stringStep_quoteChar (c : Char) (rest : Text) :
    stringStep (quoteChar c ++ rest) = .ok (some c, rest) := by
  unfold quoteChar
  split_ifs with hquote hslash hback htab hfeed hpage hreturn hcontrol
  · exact stringStep_letter (by decide) (hquote ▸ rfl) rest
  · exact stringStep_letter (by decide) (hslash ▸ rfl) rest
  · exact stringStep_letter (by decide) (hback ▸ rfl) rest
  · exact stringStep_letter (by decide) (htab ▸ rfl) rest
  · exact stringStep_letter (by decide) (hfeed ▸ rfl) rest
  · exact stringStep_letter (by decide) (hpage ▸ rfl) rest
  · exact stringStep_letter (by decide) (hreturn ▸ rfl) rest
  · exact stringStep_number hcontrol rest
  · -- the character stands for itself: it is no mark and no control character
    rw [List.singleton_append, stringStep, if_neg hcontrol]
    · exact hquote
    · exact hslash

/-- A character is written with a character at least. -/
theorem quoteChar_ne_nil (c : Char) : quoteChar c ≠ [] := by
  unfold quoteChar
  repeat' split
  all_goals simp

/-- A text is not longer than what is written for it. -/
theorem length_le_quoteBody (t : Text) : t.length ≤ (quoteBody t).length := by
  induction t with
  | nil => exact Nat.le_refl _
  | cons c t ih =>
    have hpos : 0 < (quoteChar c).length := List.length_pos_iff.mpr (quoteChar_ne_nil c)
    rw [quoteBody_cons, List.length_append, List.length_cons]
    omega

/-- A text is read in a step for each character, and one for its end. -/
theorem readStringWithin_quoteBody {fuel : Nat} {t : Text} (h : t.length < fuel) (rest : Text) :
    readStringWithin fuel (quoteBody t ++ '"' :: rest) = .ok (t, rest) := by
  induction t generalizing fuel with
  | nil =>
    obtain ⟨fuel, rfl⟩ := Nat.exists_eq_add_one_of_ne_zero (Nat.ne_of_gt h)
    rfl
  | cons c t ih =>
    obtain ⟨fuel, rfl⟩ := Nat.exists_eq_add_one_of_ne_zero (Nat.ne_of_gt (Nat.zero_lt_of_lt h))
    rw [List.length_cons] at h
    rw [quoteBody_cons, List.append_assoc, readStringWithin, stringStep_quoteChar]
    simp only [ih (Nat.lt_of_succ_lt_succ h)]
    rfl

/-- **A text that is written as a string** is read as the same text. -/
theorem readString_quoteBody (t rest : Text) :
    readString (quoteBody t ++ '"' :: rest) = .ok (t, rest) := by
  have hle : t.length ≤ (quoteBody t).length := length_le_quoteBody t
  refine readStringWithin_quoteBody ?_ rest
  rw [List.length_append]
  omega

end ChangeGate.Json
