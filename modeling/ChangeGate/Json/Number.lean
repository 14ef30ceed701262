import ChangeGate.Json.Fault
import ChangeGate.Number.Shortest

/-! # Numbers of JSON

A number without a fraction and an exponent is a whole number as long as it fits into 64 bits; every
other number is a double. The digits are collected in 64 bits, further digits only move the decimal
exponent, and the result is scaled by one multiplication or division with a power of ten. -/

namespace ChangeGate.Json

/-- A number. -/
inductive Number where
  /-- A whole number of at most 64 bits. -/
  | integer (i : Int)
  /-- Any other number. -/
  | float (x : Binary64)
deriving DecidableEq, Repr

/-- The description of a number of the wrong kind. -/
def Number.found : Number → Found
  | .integer i => .integer i
  | .float x => .float x.toScientific

/-- The largest number of 64 bits. -/
def maxUnsigned : Nat := 18446744073709551615

/-- The largest exponent that is read. -/
def maxExponent : Nat := 2147483647

/-- A number, how many digits followed it, and the rest: digits are taken while the number stays
within 64 bits. -/
def absorb (n : Nat) : Text → Nat × Nat × Text
  | [] => (n, 0, [])
  | c :: rest =>
    match Text.digit? c with
    | none => (n, 0, c :: rest)
    | some d =>
      if n * 10 + d ≤ maxUnsigned then
        let (m, k, rest') := absorb (n * 10 + d) rest
        (m, k + 1, rest')
      else (n, 0, c :: rest)

/-- Whether a text starts with a digit. -/
def startsWithDigit (t : Text) : Bool := (t.head?.map Text.isDigit).getD false

/-- The digits that start a text, counted, and the rest. -/
def skipDigits (t : Text) : Nat × Text :=
  ((t.takeWhile Text.isDigit).length, t.dropWhile Text.isDigit)

/-- The double nearest to a power of ten. -/
def powerOfTen (k : Nat) : Magnitude := Magnitude.ofNat (Nat.pow 10 k)

/-- The largest exponent of a power of ten that is a double. -/
def largestPower : Nat := 308

/-- A magnitude scaled by a power of ten, at most so often divided by the largest one first. -/
def scale : Nat → Magnitude → Int → Option Magnitude
  | 0, x, _ => some x
  | n + 1, x, e =>
    if e.natAbs ≤ largestPower then
      if 0 ≤ e then x.mul? (powerOfTen e.natAbs) else x.div? (powerOfTen e.natAbs)
    else if x.mantissa = 0 then some x
    else if 0 ≤ e then none
    else (x.div? (powerOfTen largestPower)).bind fun y => scale n y (e + largestPower)

/-- The double of digits and a decimal exponent, before what is left of the text. -/
def float (negative : Bool) (significand : Nat) (e : Int) (rest : Text) :
    Except Fault (Number × Text) :=
  match scale 4 (Magnitude.ofNat significand) e with
  | some x => .ok (.float (.finite negative x), rest)
  | none => .error (.before .numberTooLarge rest)

/-- Further digits of an exponent; nothing when it gets too large, and the rest in either case. -/
def exponentDigits (e : Nat) : Text → Option Nat × Text
  | [] => (some e, [])
  | c :: rest =>
    match Text.digit? c with
    | none => (some e, c :: rest)
    | some d => if e * 10 + d ≤ maxExponent then exponentDigits (e * 10 + d) rest else (none, rest)

/-- Whether a minus sign starts a text, and the text without a sign. -/
def splitSign (t : Text) : Bool × Text :=
  match t with
  | '+' :: rest => (false, rest)
  | '-' :: rest => (true, rest)
  | _ => (false, t)

/-- A number from the text after its exponent mark. -/
def readExponent (negative : Bool) (significand : Nat) (start : Int) (t : Text) :
    Except Fault (Number × Text) :=
  let (down, t) := splitSign t
  match t with
  | [] => .error (.before .endInValue [])
  | c :: rest =>
    match Text.digit? c with
    | none => .error (.past .invalidNumber (c :: rest))
    | some d =>
      match exponentDigits d rest with
      | (some e, rest') => float negative significand (if down then start - e else start + e) rest'
      | (none, rest') =>
        if significand ≠ 0 ∧ !down then .error (.before .numberTooLarge rest')
        else .ok (.float (.finite negative .zero), (skipDigits rest').2)

/-- A number from the text after its digits: an exponent, or nothing more. -/
def readScale (negative : Bool) (significand : Nat) (start : Int) (t : Text) :
    Except Fault (Number × Text) :=
  match t with
  | 'e' :: rest => readExponent negative significand start rest
  | 'E' :: rest => readExponent negative significand start rest
  | _ => float negative significand start t

/-- A number from the text after its decimal point. -/
def readFraction (negative : Bool) (significand : Nat) (start : Int) (t : Text) :
    Except Fault (Number × Text) :=
  let (n, k, rest) := absorb significand t
  if startsWithDigit rest then readScale negative n (start - k) (skipDigits rest).2
  else if k = 0 then
    .error (.past (if rest = [] then .endInValue else .invalidNumber) rest)
  else readScale negative n (start - k) rest

/-- A number from the text after the digits that fit. -/
def readTail (negative : Bool) (significand : Nat) (t : Text) : Except Fault (Number × Text) :=
  match t with
  | '.' :: rest => readFraction negative significand 0 rest
  | 'e' :: rest => readExponent negative significand 0 rest
  | 'E' :: rest => readExponent negative significand 0 rest
  | _ =>
    if !negative then .ok (.integer significand, t)
    else if significand = 0 ∨ 9223372036854775808 < significand then
      .ok (.float (.finite true (Magnitude.ofNat significand)), t)
    else .ok (.integer (-significand), t)

/-- A number from the text after its sign. -/
def readNumber (negative : Bool) (t : Text) : Except Fault (Number × Text) :=
  match t with
  | [] => .error (.before .endInValue [])
  | '0' :: rest =>
    if startsWithDigit rest then .error (.past .invalidNumber rest) else readTail negative 0 rest
  | c :: rest =>
    match Text.digit? c with
    | none => .error (.past .invalidNumber (c :: rest))
    | some d =>
      let (n, _, rest') := absorb d rest
      if startsWithDigit rest' then
        let (k, rest'') := skipDigits rest'
        match rest'' with
        | '.' :: more => readFraction negative n k more
        | _ => readScale negative n k rest''
      else readTail negative n rest'

/-- The rest of a text after an exponent whose value does not matter; `t` follows its mark. -/
def ignoreExponent (t : Text) : Except Fault Text :=
  let t := (splitSign t).2
  if startsWithDigit t then .ok (skipDigits t).2 else .error (.past .invalidNumber t)

/-- The rest of a text after an exponent, if there is one. -/
def ignoreScale (t : Text) : Except Fault Text :=
  match t with
  | 'e' :: rest => ignoreExponent rest
  | 'E' :: rest => ignoreExponent rest
  | _ => .ok t

/-- The rest of a text after a fraction and an exponent, if there are any. -/
def ignoreTail (t : Text) : Except Fault Text :=
  match t with
  | '.' :: rest =>
    if startsWithDigit rest then ignoreScale (skipDigits rest).2
    else .error (.past .invalidNumber rest)
  | _ => ignoreScale t

/-- The rest of a text after a number whose value does not matter; `t` follows its sign. -/
def ignoreNumber (t : Text) : Except Fault Text :=
  match t with
  | '0' :: rest =>
    if startsWithDigit rest then .error (.past .invalidNumber rest) else ignoreTail rest
  | _ =>
    if startsWithDigit t then ignoreTail (skipDigits t).2 else .error (.past .invalidNumber t)

end ChangeGate.Json
