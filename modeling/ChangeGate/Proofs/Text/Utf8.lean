import ChangeGate.Text.Utf8

/-! # The bytes of ASCII characters

A character of ASCII is a byte of its own, and that byte stands for nothing else: it is among the bytes
of a text exactly if the character is in the text (**`mem_encode_iff`**). So what is cut at such bytes
is cut at the characters. -/

namespace ChangeGate.Text

/-- A byte is a number below 256. -/
theorem toNat_toUInt8 {n : Nat} (h : n < 0x100) : n.toUInt8.toNat = n := by
  rw [Nat.toUInt8_eq, UInt8.toNat_ofNat']
  omega

/-- The numbers of characters: they end at the last code point, and surrogates are left out. -/
theorem toNat_bounds (c : Char) : (c.toNat < 0xD800 ∨ 0xDFFF < c.toNat) ∧ c.toNat < 0x110000 := by
  have hvalid := c.valid
  simp only [UInt32.isValidChar, Nat.isValidChar] at hvalid
  have hnumber : c.toNat = c.val.toNat := rfl
  omega

/-- The bytes of a character beyond ASCII are none of ASCII. -/
theorem le_of_mem_encodeChar {c : Char} (h : 0x80 ≤ c.toNat) {b : UInt8} (hb : b ∈ encodeChar c) :
    0x80 ≤ b.toNat := by
  have htop : c.toNat < 0x110000 := (toNat_bounds c).2
  -- each byte is a sum whose first part already lies beyond ASCII
  have hbyte : ∀ n, b = n.toUInt8 → 0x80 ≤ n → n < 0x100 → 0x80 ≤ b.toNat := by
    intro n hn hlow hhigh
    rw [hn, toNat_toUInt8 hhigh]
    exact hlow
  rw [encodeChar, if_neg (by omega)] at hb
  by_cases htwo : c.toNat < 0x800
  · rw [if_pos htwo] at hb
    simp only [List.mem_cons, List.not_mem_nil, or_false] at hb
    rcases hb with hb | hb
    · exact hbyte _ hb (by omega) (by omega)
    · exact hbyte _ hb (by omega) (by omega)
  rw [if_neg htwo] at hb
  by_cases hthree : c.toNat < 0x10000
  · rw [if_pos hthree] at hb
    simp only [List.mem_cons, List.not_mem_nil, or_false] at hb
    rcases hb with hb | hb | hb
    · exact hbyte _ hb (by omega) (by omega)
    · exact hbyte _ hb (by omega) (by omega)
    · exact hbyte _ hb (by omega) (by omega)
  · rw [if_neg hthree] at hb
    simp only [List.mem_cons, List.not_mem_nil, or_false] at hb
    rcases hb with hb | hb | hb | hb
    · exact hbyte _ hb (by omega) (by omega)
    · exact hbyte _ hb (by omega) (by omega)
    · exact hbyte _ hb (by omega) (by omega)
    · exact hbyte _ hb (by omega) (by omega)

/-- The byte of a character of ASCII is among the bytes of that character alone. -/
theorem mem_encodeChar_iff {c d : Char} (hc : c.toNat < 0x80) :
    c.toNat.toUInt8 ∈ encodeChar d ↔ c = d := by
  have hcode : c.toNat.toUInt8.toNat = c.toNat := toNat_toUInt8 (by omega)
  constructor
  · intro hmem
    by_cases hd : d.toNat < 0x80
    · rw [encodeChar, if_pos hd, List.mem_singleton] at hmem
      have hsame := congrArg UInt8.toNat hmem
      rw [hcode, toNat_toUInt8 (by omega)] at hsame
      exact Char.toNat_inj.mp hsame
    · have hbeyond := le_of_mem_encodeChar (by omega) hmem
      omega
  · rintro rfl
    rw [encodeChar, if_pos hc]
    exact List.mem_singleton_self _

/-- **The byte of a character of ASCII is among the bytes of a text** exactly if the character is in the
text. -/
theorem mem_encode_iff {c : Char} (hc : c.toNat < 0x80) {t : Text} :
    c.toNat.toUInt8 ∈ encode t ↔ c ∈ t := by
  rw [encode, List.mem_flatMap]
  constructor
  · rintro ⟨d, hd, hmem⟩
    obtain rfl := (mem_encodeChar_iff hc).mp hmem
    exact hd
  · intro h
    exact ⟨c, h, (mem_encodeChar_iff hc).mpr rfl⟩

/-- There is a byte of every character. -/
theorem encodeChar_ne_nil (c : Char) : encodeChar c ≠ [] := by
  unfold encodeChar
  dsimp only
  repeat' split
  all_goals simp

/-- Every character takes a byte at least. -/
theorem length_le_byteLength (t : Text) : t.length ≤ byteLength t := by
  induction t with
  | nil => exact Nat.zero_le _
  | cons c t ih =>
    have hpos : 0 < (encodeChar c).length := List.length_pos_iff.mpr (encodeChar_ne_nil c)
    rw [byteLength] at ih ⊢
    rw [encode_cons, List.length_append, List.length_cons]
    omega

/-- Only the empty text has no bytes. -/
@[simp] theorem encode_eq_nil_iff {t : Text} : encode t = [] ↔ t = [] := by
  cases t with
  | nil => simp
  | cons c t => simp [encodeChar_ne_nil]

/-- A text whose last byte is a character of ASCII ends in that character. -/
theorem getLast?_of_encode {c : Char} (hc : c.toNat < 0x80) {t : Text}
    (h : (encode t).getLast? = some c.toNat.toUInt8) : t.getLast? = some c := by
  rcases t.eq_nil_or_concat with rfl | ⟨front, d, hd⟩
  · exact absurd h (by simp)
  rw [List.concat_eq_append] at hd
  have hlast : (encodeChar d).getLast? = some c.toNat.toUInt8 := by
    have hsome := List.getLast?_eq_some_getLast (encodeChar_ne_nil d)
    rw [hd, encode_append, encode_cons, encode_nil, List.append_nil, List.getLast?_append, hsome,
      Option.some_or] at h
    rw [hsome, h]
  obtain rfl := (mem_encodeChar_iff hc).mp (List.mem_of_getLast? hlast)
  rw [hd]
  exact List.getLast?_concat

end ChangeGate.Text
