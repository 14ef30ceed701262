import ChangeGate.Proofs.Text.Lines
import ChangeGate.Proofs.Text.Utf8

/-! # Reading bytes as text

A step of reading takes the bytes of one character if they are there (`step_of_encodeChar`), and gives a
character for no others (`encodeChar_of_step`). So a byte string is read as a text exactly if it
consists of the bytes of that text (**`decode?_eq_some_iff`**). The bytes that end a line stand for
nothing but themselves, so reading the lines of a byte string one by one gives the lines of the text
that is read at once (**`mapM_decode?_linesOf`**). -/

namespace ChangeGate.Text

/-! ## (1) The bytes of a character -/

/-- A byte may follow in a sequence when it lies between the two bounds; its value is what is left of
it without its mark. -/
theorem follow?_eq_some {low high x : Nat} {b : UInt8} :
    follow? low high b = some x ↔ (low ≤ b.toNat ∧ b.toNat ≤ high) ∧ b.toNat % 0x40 = x := by
  rw [follow?, Option.ite_none_right_eq_some, Option.some.injEq]

/-- A byte is known by its number. -/
theorem eq_toUInt8 {b : UInt8} {n : Nat} (h : b.toNat = n) : b = n.toUInt8 := by
  rw [← h, Nat.toUInt8_eq, UInt8.ofNat_toNat]

/-- A number that belongs to no surrogate and lies below the end of the code points is the number of a
character. -/
theorem toNat_ofNat {n : Nat} (hlow : n < 0xD800 ∨ 0xDFFF < n) (hhigh : n < 0x110000) :
    (Char.ofNat n).toNat = n := by
  have hvalid : n.isValidChar := by
    rcases hlow with hlow | hlow
    · exact .inl hlow
    · exact .inr ⟨hlow, hhigh⟩
  rw [Char.ofNat, dif_pos hvalid]
  rfl

/-- A byte with the mark of one that follows has the value that was marked. -/
theorem follow?_toUInt8 {n : Nat} (h : n < 0x40) :
    follow? 0x80 0xBF (0x80 + n).toUInt8 = some n := by
  rw [follow?_eq_some, toNat_toUInt8 (by omega)]
  omega

/-! ## (2) One step -/

/-- **A step takes the bytes of a character** if they are there. -/
theorem step_of_encodeChar {c : Char} {b : UInt8} {tail : Bytes} (h : encodeChar c = b :: tail)
    (rest : Bytes) : step b (tail ++ rest) = (some c, tail.length) := by
  obtain ⟨hsurrogate, htop⟩ := toNat_bounds c
  unfold encodeChar at h
  dsimp only at h
  split at h
  · obtain ⟨rfl, rfl⟩ := List.cons.inj h
    have hb : c.toNat.toUInt8.toNat = c.toNat := toNat_toUInt8 (by omega)
    simp only [step, hb]
    rw [if_pos (by omega), Char.ofNat_toNat]
    rfl
  split at h
  · obtain ⟨rfl, rfl⟩ := List.cons.inj h
    have hb : (0xC0 + c.toNat / 0x40).toUInt8.toNat = 0xC0 + c.toNat / 0x40 :=
      toNat_toUInt8 (by omega)
    have hx := follow?_toUInt8 (Nat.mod_lt c.toNat (show 0 < 0x40 by decide))
    simp only [step, hb, List.cons_append, hx]
    rw [if_neg (by omega), if_pos (by omega),
      show (0xC0 + c.toNat / 0x40) % 0x20 * 0x40 + c.toNat % 0x40 = c.toNat by omega,
      Char.ofNat_toNat]
    rfl
  split at h
  · obtain ⟨rfl, rfl⟩ := List.cons.inj h
    have hb : (0xE0 + c.toNat / 0x1000).toUInt8.toNat = 0xE0 + c.toNat / 0x1000 :=
      toNat_toUInt8 (by omega)
    -- no shorter form is left, and no surrogate
    have hx : follow? (if 0xE0 + c.toNat / 0x1000 = 0xE0 then 0xA0 else 0x80)
        (if 0xE0 + c.toNat / 0x1000 = 0xED then 0x9F else 0xBF)
        (0x80 + c.toNat / 0x40 % 0x40).toUInt8 = some (c.toNat / 0x40 % 0x40) := by
      rw [follow?_eq_some, toNat_toUInt8 (by omega)]
      split <;> split <;> omega
    have hy := follow?_toUInt8 (Nat.mod_lt c.toNat (show 0 < 0x40 by decide))
    simp only [step, hb, List.cons_append, hx, hy]
    rw [if_neg (by omega), if_neg (by omega), if_pos (by omega),
      show (0xE0 + c.toNat / 0x1000) % 0x10 * 0x1000 + c.toNat / 0x40 % 0x40 * 0x40 +
        c.toNat % 0x40 = c.toNat by omega, Char.ofNat_toNat]
    rfl
  · obtain ⟨rfl, rfl⟩ := List.cons.inj h
    have hb : (0xF0 + c.toNat / 0x40000).toUInt8.toNat = 0xF0 + c.toNat / 0x40000 :=
      toNat_toUInt8 (by omega)
    have hx : follow? (if 0xF0 + c.toNat / 0x40000 = 0xF0 then 0x90 else 0x80)
        (if 0xF0 + c.toNat / 0x40000 = 0xF4 then 0x8F else 0xBF)
        (0x80 + c.toNat / 0x1000 % 0x40).toUInt8 = some (c.toNat / 0x1000 % 0x40) := by
      rw [follow?_eq_some, toNat_toUInt8 (by omega)]
      split <;> split <;> omega
    have hy := follow?_toUInt8 (Nat.mod_lt (c.toNat / 0x40) (show 0 < 0x40 by decide))
    have hz := follow?_toUInt8 (Nat.mod_lt c.toNat (show 0 < 0x40 by decide))
    simp only [step, hb, List.cons_append, hx, hy, hz]
    rw [if_neg (by omega), if_neg (by omega), if_neg (by omega), if_pos (by omega),
      show (0xF0 + c.toNat / 0x40000) % 8 * 0x40000 + c.toNat / 0x1000 % 0x40 * 0x1000 +
        c.toNat / 0x40 % 0x40 * 0x40 + c.toNat % 0x40 = c.toNat by omega, Char.ofNat_toNat]
    rfl

/-- The bytes of a character that is read from two bytes. -/
theorem encodeChar_of_step_two {c : Char} {b : UInt8} {rest : Bytes}
    (hb : 0xC2 ≤ b.toNat ∧ b.toNat ≤ 0xDF) (h : (step b rest).1 = some c) :
    encodeChar c = b :: rest.take (step b rest).2 := by
  simp only [step, if_neg (show ¬ b.toNat < 0x80 by omega), if_pos hb] at h ⊢
  rcases rest with _ | ⟨b1, rest⟩
  · exact absurd h (by simp)
  dsimp only at h ⊢
  cases hx : follow? 0x80 0xBF b1 with
  | none => simp [hx] at h
  | some x =>
    simp only [hx] at h ⊢
    obtain ⟨hb1, rfl⟩ := follow?_eq_some.mp hx
    obtain rfl := Option.some.inj h
    rw [encodeChar, toNat_ofNat (by omega) (by omega), if_neg (by omega), if_pos (by omega),
      ← eq_toUInt8 (b := b) (by omega), ← eq_toUInt8 (b := b1) (by omega)]
    rfl

/-- The bytes of a character that is read from three bytes: the bounds on the second one rule out
shorter forms and surrogates. -/
theorem encodeChar_of_step_three {c : Char} {b : UInt8} {rest : Bytes}
    (hb : 0xE0 ≤ b.toNat ∧ b.toNat ≤ 0xEF) (h : (step b rest).1 = some c) :
    encodeChar c = b :: rest.take (step b rest).2 := by
  simp only [step, if_neg (show ¬ b.toNat < 0x80 by omega),
    if_neg (show ¬ (0xC2 ≤ b.toNat ∧ b.toNat ≤ 0xDF) by omega), if_pos hb] at h ⊢
  rcases rest with _ | ⟨b1, rest⟩
  · exact absurd h (by simp)
  dsimp only at h ⊢
  cases hx : follow? (if b.toNat = 0xE0 then 0xA0 else 0x80)
      (if b.toNat = 0xED then 0x9F else 0xBF) b1 with
  | none => simp [hx] at h
  | some x =>
    simp only [hx] at h ⊢
    rcases rest with _ | ⟨b2, rest⟩
    · exact absurd h (by simp)
    dsimp only at h ⊢
    cases hy : follow? 0x80 0xBF b2 with
    | none => simp [hy] at h
    | some y =>
      simp only [hy] at h ⊢
      obtain ⟨hb1, rfl⟩ := follow?_eq_some.mp hx
      obtain ⟨hb2, rfl⟩ := follow?_eq_some.mp hy
      obtain rfl := Option.some.inj h
      have hbounds : (b.toNat = 0xE0 → 0xA0 ≤ b1.toNat) ∧ (b.toNat = 0xED → b1.toNat ≤ 0x9F) ∧
          0x80 ≤ b1.toNat ∧ b1.toNat ≤ 0xBF := by
        split at hb1 <;> split at hb1 <;> omega
      rw [encodeChar, toNat_ofNat (by omega) (by omega), if_neg (by omega), if_neg (by omega),
        if_pos (by omega), ← eq_toUInt8 (b := b) (by omega), ← eq_toUInt8 (b := b1) (by omega),
        ← eq_toUInt8 (b := b2) (by omega)]
      rfl

/-- The bytes of a character that is read from four bytes: the bounds on the second one rule out
shorter forms and numbers that are too large. -/
theorem encodeChar_of_step_four {c : Char} {b : UInt8} {rest : Bytes}
    (hb : 0xF0 ≤ b.toNat ∧ b.toNat ≤ 0xF4) (h : (step b rest).1 = some c) :
    encodeChar c = b :: rest.take (step b rest).2 := by
  simp only [step, if_neg (show ¬ b.toNat < 0x80 by omega),
    if_neg (show ¬ (0xC2 ≤ b.toNat ∧ b.toNat ≤ 0xDF) by omega),
    if_neg (show ¬ (0xE0 ≤ b.toNat ∧ b.toNat ≤ 0xEF) by omega), if_pos hb] at h ⊢
  -- three more bytes have to follow
  rcases rest with _ | ⟨b1, rest⟩
  · exact absurd h (by simp)
  dsimp only at h ⊢
  cases hx : follow? (if b.toNat = 0xF0 then 0x90 else 0x80)
      (if b.toNat = 0xF4 then 0x8F else 0xBF) b1 with
  | none => simp [hx] at h
  | some x =>
    simp only [hx] at h ⊢
    rcases rest with _ | ⟨b2, rest⟩
    · exact absurd h (by simp)
    dsimp only at h ⊢
    cases hy : follow? 0x80 0xBF b2 with
    | none => simp [hy] at h
    | some y =>
      simp only [hy] at h ⊢
      rcases rest with _ | ⟨b3, rest⟩
      · exact absurd h (by simp)
      dsimp only at h ⊢
      cases hz : follow? 0x80 0xBF b3 with
      | none => simp [hz] at h
      | some z =>
        simp only [hz] at h ⊢
        obtain ⟨hb1, rfl⟩ := follow?_eq_some.mp hx
        obtain ⟨hb2, rfl⟩ := follow?_eq_some.mp hy
        obtain ⟨hb3, rfl⟩ := follow?_eq_some.mp hz
        obtain rfl := Option.some.inj h
        have hbounds : (b.toNat = 0xF0 → 0x90 ≤ b1.toNat) ∧ (b.toNat = 0xF4 → b1.toNat ≤ 0x8F) ∧
            0x80 ≤ b1.toNat ∧ b1.toNat ≤ 0xBF := by
          split at hb1 <;> split at hb1 <;> omega
        rw [encodeChar, toNat_ofNat (by omega) (by omega), if_neg (by omega), if_neg (by omega),
          if_neg (by omega), ← eq_toUInt8 (b := b) (by omega), ← eq_toUInt8 (b := b1) (by omega),
          ← eq_toUInt8 (b := b2) (by omega), ← eq_toUInt8 (b := b3) (by omega)]
        rfl

/-- **A step gives a character only for its bytes.** -/
theorem encodeChar_of_step {c : Char} {b : UInt8} {rest : Bytes} (h : (step b rest).1 = some c) :
    encodeChar c = b :: rest.take (step b rest).2 := by
  by_cases hone : b.toNat < 0x80
  · simp only [step, if_pos hone] at h ⊢
    obtain rfl := Option.some.inj h
    rw [encodeChar, toNat_ofNat (by omega) (by omega), if_pos hone, ← eq_toUInt8 rfl]
    rfl
  by_cases htwo : 0xC2 ≤ b.toNat ∧ b.toNat ≤ 0xDF
  · exact encodeChar_of_step_two htwo h
  by_cases hthree : 0xE0 ≤ b.toNat ∧ b.toNat ≤ 0xEF
  · exact encodeChar_of_step_three hthree h
  by_cases hfour : 0xF0 ≤ b.toNat ∧ b.toNat ≤ 0xF4
  · exact encodeChar_of_step_four hfour h
  · -- no character starts with any other byte
    simp [step, if_neg hone, if_neg htwo, if_neg hthree, if_neg hfour] at h

/-! ## (3) Whole texts -/

/-- The bytes that belong to a step are passed over. -/
theorem scanFrom_eq (skip : Nat) (bytes : Bytes) : scanFrom skip bytes = scan (bytes.drop skip) := by
  induction skip generalizing bytes with
  | zero => rw [scan, List.drop_zero]
  | succ skip ih =>
    cases bytes with
    | nil => rfl
    | cons b rest => exact ih rest

/-- Reading goes on behind the bytes of a step. -/
theorem decode?_cons (b : UInt8) (rest : Bytes) :
    decode? (b :: rest) =
      (step b rest).1.bind fun c => (decode? (rest.drop (step b rest).2)).map (c :: ·) := by
  rw [decode?, scan, scanFrom, List.mapM_cons, scanFrom_eq, decode?]
  cases (step b rest).1 with
  | none => rfl
  | some c => cases (scan (rest.drop (step b rest).2)).mapM id <;> rfl

/-- The bytes of a text are read as the text: induction on its characters. -/
theorem decode?_encode (t : Text) : decode? (encode t) = some t := by
  induction t with
  | nil => rfl
  | cons c t ih =>
    cases hbytes : encodeChar c with
    | nil => exact absurd hbytes (encodeChar_ne_nil c)
    | cons b tail =>
      rw [encode_cons, hbytes, List.cons_append, decode?_cons, step_of_encodeChar hbytes]
      dsimp only [Option.bind_some]
      rw [List.drop_left, ih]
      rfl

/-- Bytes that are read as a text are the bytes of that text: induction on their number, since each
step takes some of them. -/
theorem eq_encode_of_decode? {bytes : Bytes} {t : Text} (h : decode? bytes = some t) :
    bytes = encode t := by
  induction hlength : bytes.length using Nat.strongRecOn generalizing bytes t with
  | ind n ih =>
    subst hlength
    cases bytes with
    | nil =>
      obtain rfl := Option.some.inj h
      rfl
    | cons b rest =>
      rw [decode?_cons, Option.bind_eq_some_iff] at h
      obtain ⟨c, hc, h⟩ := h
      obtain ⟨t, ht, rfl⟩ := Option.map_eq_some_iff.mp h
      have hrest : rest.drop (step b rest).2 = encode t :=
        ih _ (by simp only [List.length_drop, List.length_cons]; omega) ht rfl
      rw [encode_cons, encodeChar_of_step hc, ← hrest, List.cons_append, List.take_append_drop]

/-- **A byte string is read as a text exactly if it consists of the bytes of that text.** -/
theorem decode?_eq_some_iff {bytes : Bytes} {t : Text} : decode? bytes = some t ↔ bytes = encode t := by
  constructor
  · exact eq_encode_of_decode?
  · rintro rfl
    exact decode?_encode t

/-- A byte string that consists of the bytes of no text is not read. -/
theorem decode?_eq_none_iff {bytes : Bytes} : decode? bytes = none ↔ ∀ t, bytes ≠ encode t := by
  rw [Option.eq_none_iff_forall_ne_some]
  simp only [ne_eq, decode?_eq_some_iff]

/-- What is read as a text without a fault is the same text when faults are replaced. -/
theorem decodeLossy_of_decode? {bytes : Bytes} {t : Text} (h : decode? bytes = some t) :
    decodeLossy bytes = t := by
  rw [decode?] at h
  rw [decodeLossy]
  generalize scan bytes = steps at h
  induction steps generalizing t with
  | nil => exact Option.some.inj h
  | cons step steps ih =>
    cases step with
    | none => exact absurd h (by simp [List.mapM_cons])
    | some c =>
      have hmapM : (some c :: steps).mapM id = (steps.mapM id).map (c :: ·) := by
        rw [List.mapM_cons]
        cases steps.mapM id <;> rfl
      rw [hmapM] at h
      obtain ⟨more, hmore, rfl⟩ := Option.map_eq_some_iff.mp h
      rw [List.map_cons, ih hmore, Option.getD_some]

/-- **The bytes of a text are decoded as the text**, also where faults would be replaced. -/
theorem decodeLossy_encode (t : Text) : decodeLossy (encode t) = t :=
  decodeLossy_of_decode? (decode?_encode t)

/-! ## (4) Lines -/

/-- The byte that ends a line is among the bytes of a text exactly if a line feed is in the text. -/
theorem feed_mem_encode {t : Text} : (10 : UInt8) ∈ encode t ↔ '\n' ∈ t :=
  mem_encode_iff (c := '\n') (by decide)

/-- The bytes of a text without a carriage return at its end. -/
theorem dropLastIf_encode (t : Text) : dropLastIf 13 (encode t) = encode (dropLastIf '\r' t) := by
  by_cases hreturn : t.getLast? = some '\r'
  · obtain ⟨line, rfl⟩ := List.getLast?_eq_some_iff.mp hreturn
    have hbyte : encode ['\r'] = [13] := rfl
    rw [encode_append, hbyte, dropLastIf, dropLastIf, if_pos List.getLast?_concat, if_pos hreturn,
      List.dropLast_concat, List.dropLast_concat]
  · have hbyte : ¬ (encode t).getLast? = some 13 := fun h =>
      hreturn (getLast?_of_encode (c := '\r') (by decide) h)
    rw [dropLastIf, dropLastIf, if_neg hbyte, if_neg hreturn]

/-- A list that is the bytes of a text once a return mark at its end is dropped is the bytes of a
text. -/
theorem exists_encode_of_dropLastIf {bytes : Bytes} {line : Text}
    (h : dropLastIf 13 bytes = encode line) : ∃ t, bytes = encode t := by
  unfold dropLastIf at h
  split at h
  · rename_i hreturn
    obtain ⟨front, rfl⟩ := List.getLast?_eq_some_iff.mp hreturn
    rw [List.dropLast_concat] at h
    exact ⟨line ++ ['\r'], by rw [encode_append, ← h]; rfl⟩
  · exact ⟨line, h⟩

/-- **The lines of the bytes of a text are the bytes of its lines**: induction on the line feeds. -/
theorem linesOf_encode (t : Text) : linesOf 10 13 (encode t) = (lines t).map encode := by
  induction t using separatorInduction '\n' with
  | last t hfeed =>
    rw [linesOf_of_not_mem (fun h => hfeed (feed_mem_encode.mp h)), lines_of_not_mem hfeed]
    by_cases ht : t = []
    · rw [if_pos ht, if_pos (encode_eq_nil_iff.mpr ht), List.map_nil]
    · rw [if_neg ht, if_neg (mt encode_eq_nil_iff.mp ht), List.map_singleton]
  | next front rest hfront ih =>
    have hbytes : encode (front ++ '\n' :: rest) = encode front ++ 10 :: encode rest := by
      rw [encode_append, encode_cons]
      rfl
    rw [hbytes, linesOf_append (fun h => hfront (feed_mem_encode.mp h)), lines_append hfront,
      List.map_cons, dropLastIf_encode, ih]

/-- Bytes whose lines are all texts are a text: induction on the bytes that end lines. -/
theorem exists_encode_of_linesOf {bytes : Bytes} {ls : List Text}
    (h : (linesOf 10 13 bytes).mapM decode? = some ls) : ∃ t, bytes = encode t := by
  induction bytes using separatorInduction (10 : UInt8) generalizing ls with
  | last bytes hfeed =>
    rw [linesOf_of_not_mem hfeed] at h
    by_cases hbytes : bytes = []
    · exact ⟨[], hbytes⟩
    · rw [if_neg hbytes, List.mapM_cons, Option.bind_eq_bind, Option.bind_eq_some_iff] at h
      obtain ⟨line, hline, -⟩ := h
      exact ⟨line, decode?_eq_some_iff.mp hline⟩
  | next front rest hfront ih =>
    rw [linesOf_append hfront, List.mapM_cons, Option.bind_eq_bind, Option.bind_eq_some_iff] at h
    obtain ⟨line, hline, h⟩ := h
    obtain ⟨more, hmore, -⟩ := Option.bind_eq_some_iff.mp h
    obtain ⟨start, rfl⟩ := exists_encode_of_dropLastIf (decode?_eq_some_iff.mp hline)
    obtain ⟨t, rfl⟩ := ih hmore
    exact ⟨start ++ '\n' :: t, by rw [encode_append, encode_cons]; rfl⟩

/-- The bytes of texts are read as the texts. -/
theorem mapM_decode?_map_encode (ts : List Text) : (ts.map encode).mapM decode? = some ts := by
  induction ts with
  | nil => rfl
  | cons t ts ih =>
    rw [List.map_cons, List.mapM_cons, decode?_encode, ih]
    rfl

/-- **Reading bytes line by line** gives the lines of the text that they are, and fails if they are
no text. -/
theorem mapM_decode?_linesOf (bytes : Bytes) :
    (linesOf 10 13 bytes).mapM decode? = (decode? bytes).map lines := by
  cases hread : decode? bytes with
  | some t =>
    obtain rfl := decode?_eq_some_iff.mp hread
    rw [linesOf_encode, mapM_decode?_map_encode, Option.map_some]
  | none =>
    cases hlines : (linesOf 10 13 bytes).mapM decode? with
    | none => rfl
    | some ls =>
      obtain ⟨t, rfl⟩ := exists_encode_of_linesOf hlines
      exact absurd hread (by simp [decode?_encode])

end ChangeGate.Text
