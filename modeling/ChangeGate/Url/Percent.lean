import ChangeGate.Text.Decimal
import ChangeGate.Text.Utf8

/-! # Percent encoding

A byte that may not stand in a part of an address is written as a percent sign and two hexadecimal
digits. Each part has its own set of characters that are **encoded**; characters beyond ASCII are
encoded in every part, byte by byte. -/

namespace ChangeGate.Url

/-- One hexadecimal digit, letters in upper case. -/
def hexDigit (n : Nat) : Char := if n < 10 then Char.ofNat (48 + n) else Char.ofNat (55 + n)

/-- A byte as a percent sign and two digits. -/
def encodeByte (b : UInt8) : Text := ['%', hexDigit (b.toNat / 16), hexDigit (b.toNat % 16)]

/-- Characters that are no printable characters of ASCII. -/
def isControl (c : Char) : Bool := c.toNat < 0x20 || 0x7F ≤ c.toNat

/-- The characters that are encoded in a path. -/
def pathSet (c : Char) : Bool := isControl c || " \"<>\x60#?\x7b\x7d".toList.contains c

/-- The characters that are encoded in a query; an apostrophe is, in the schemes of the web. -/
def querySet (special : Bool) (c : Char) : Bool :=
  isControl c || " \"#<>".toList.contains c || (special && c == '\'')

/-- The characters that are encoded in a fragment. -/
def fragmentSet (c : Char) : Bool := isControl c || " \"<>\x60".toList.contains c

/-- The characters that are encoded in the name and the password of a user. -/
def userSet (c : Char) : Bool := pathSet c || "/:;=@[\\]^|".toList.contains c

/-- A character as it is written in a part that encodes a set. -/
def encodeChar (set : Char → Bool) (c : Char) : Text :=
  if set c then (Text.encodeChar c).flatMap encodeByte else [c]

/-- A text as it is written in a part that encodes a set. -/
def encode (set : Char → Bool) (t : Text) : Text := t.flatMap (encodeChar set)

/-- The bytes of a text in which percent signs and digits stand for bytes. -/
def decode : Text → Text.Bytes
  | '%' :: a :: b :: rest =>
    match Text.hexDigit? a, Text.hexDigit? b with
    | some x, some y => (16 * x + y).toUInt8 :: decode rest
    | _, _ => Text.encodeChar '%' ++ decode (a :: b :: rest)
  | c :: rest => Text.encodeChar c ++ decode rest
  | [] => []

@[simp] theorem encode_nil (set : Char → Bool) : encode set [] = [] := rfl

@[simp] theorem encode_cons (set : Char → Bool) (c : Char) (t : Text) :
    encode set (c :: t) = encodeChar set c ++ encode set t := by simp [encode]

/-- A text without characters of the set is written as it is. -/
theorem encode_of_forall {set : Char → Bool} {t : Text} (h : ∀ c ∈ t, set c = false) :
    encode set t = t := by
  induction t with
  | nil => rfl
  | cons c t ih =>
    have hc : encodeChar set c = [c] := by simp [encodeChar, h c]
    have ht : encode set t = t := ih fun d hd => h d (by simp [hd])
    rw [encode_cons, hc, ht]
    rfl

end ChangeGate.Url
