import ChangeGate.Text.Blank

/-! # UTF-8

**scan** reads bytes from left to right: a well-formed sequence gives its character, and each
longest start of a sequence that cannot be completed gives nothing. **decode?** accepts a byte
string exactly when every step gives a character, and **decodeLossy** puts the replacement
character where a step gives none. -/

namespace ChangeGate.Text

/-- Byte strings. -/
abbrev Bytes := List UInt8

/-- The bytes of one character. -/
def encodeChar (c : Char) : Bytes :=
  let n := c.toNat
  if n < 0x80 then [n.toUInt8]
  else if n < 0x800 then [(0xC0 + n / 0x40).toUInt8, (0x80 + n % 0x40).toUInt8]
  else if n < 0x10000 then
    [(0xE0 + n / 0x1000).toUInt8, (0x80 + n / 0x40 % 0x40).toUInt8, (0x80 + n % 0x40).toUInt8]
  else
    [(0xF0 + n / 0x40000).toUInt8, (0x80 + n / 0x1000 % 0x40).toUInt8,
      (0x80 + n / 0x40 % 0x40).toUInt8, (0x80 + n % 0x40).toUInt8]

/-- The bytes of a text. -/
def encode (t : Text) : Bytes := t.flatMap encodeChar

@[simp] theorem encode_nil : encode [] = [] := rfl

@[simp] theorem encode_cons (c : Char) (t : Text) :
    encode (c :: t) = encodeChar c ++ encode t := by simp [encode]

@[simp] theorem encode_append (s t : Text) : encode (s ++ t) = encode s ++ encode t := by
  simp [encode]

/-- The number of bytes of a text. -/
def byteLength (t : Text) : Nat := (encode t).length

/-- The value of a byte that lies between two bounds and so may follow in a sequence. -/
def follow? (low high : Nat) (b : UInt8) : Option Nat :=
  if low ≤ b.toNat ∧ b.toNat ≤ high then some (b.toNat % 0x40) else none

/-- One step of reading: the character that starts at `b`, or nothing, and how many bytes after `b`
the step takes. The bounds on the second byte rule out overlong forms, surrogates and values above
U+10FFFF. -/
def step (b : UInt8) (rest : Bytes) : Option Char × Nat :=
  let n := b.toNat
  -- one byte: the characters of ASCII
  if n < 0x80 then (some (Char.ofNat n), 0)
  -- two bytes: 0xC0 and 0xC1 could only start an overlong form
  else if 0xC2 ≤ n ∧ n ≤ 0xDF then
    match rest with
    | b1 :: _ =>
      match follow? 0x80 0xBF b1 with
      | some x => (some (Char.ofNat (n % 0x20 * 0x40 + x)), 1)
      | none => (none, 0)
    | [] => (none, 0)
  -- three bytes: after 0xE0 a small second byte is overlong, after 0xED a large one a surrogate
  else if 0xE0 ≤ n ∧ n ≤ 0xEF then
    match rest with
    | b1 :: rest1 =>
      match follow? (if n = 0xE0 then 0xA0 else 0x80) (if n = 0xED then 0x9F else 0xBF) b1 with
      | some x =>
        match rest1 with
        | b2 :: _ =>
          match follow? 0x80 0xBF b2 with
          | some y => (some (Char.ofNat (n % 0x10 * 0x1000 + x * 0x40 + y)), 2)
          | none => (none, 1)
        | [] => (none, 1)
      | none => (none, 0)
    | [] => (none, 0)
  -- four bytes: after 0xF4 a large second byte is above U+10FFFF
  else if 0xF0 ≤ n ∧ n ≤ 0xF4 then
    match rest with
    | b1 :: rest1 =>
      match follow? (if n = 0xF0 then 0x90 else 0x80) (if n = 0xF4 then 0x8F else 0xBF) b1 with
      | some x =>
        match rest1 with
        | b2 :: rest2 =>
          match follow? 0x80 0xBF b2 with
          | some y =>
            match rest2 with
            | b3 :: _ =>
              match follow? 0x80 0xBF b3 with
              | some z =>
                (some (Char.ofNat (n % 8 * 0x40000 + x * 0x1000 + y * 0x40 + z)), 3)
              | none => (none, 2)
            | [] => (none, 2)
          | none => (none, 1)
        | [] => (none, 1)
      | none => (none, 0)
    | [] => (none, 0)
  else (none, 0)

/-- The steps of reading a byte string; the first `skip` bytes belong to the step before. -/
def scanFrom : Nat → Bytes → List (Option Char)
  | _, [] => []
  | skip + 1, _ :: rest => scanFrom skip rest
  | 0, b :: rest => (step b rest).1 :: scanFrom (step b rest).2 rest

/-- The steps of reading a byte string. -/
def scan (bytes : Bytes) : List (Option Char) := scanFrom 0 bytes

/-- The text of a well-formed byte string. -/
def decode? (bytes : Bytes) : Option Text := (scan bytes).mapM id

/-- The text of a byte string, with U+FFFD for each malformed part. -/
def decodeLossy (bytes : Bytes) : Text := (scan bytes).map (·.getD '\uFFFD')

@[simp] theorem decode?_nil : decode? [] = some [] := rfl

@[simp] theorem decodeLossy_nil : decodeLossy [] = [] := rfl

end ChangeGate.Text
