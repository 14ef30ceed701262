import ChangeGate.Text.Lines
import ChangeGate.Toml.Value

/-! # Numbers and dates of TOML

A number, a date or a word of TOML is a run of characters without blanks; **scalar?** reads one.
Digits may be grouped by underscores that stand between two of them. -/

namespace ChangeGate.Toml

/-! ## Numbers -/

/-- Digits without the underscores that group them. -/
def grouped? (isDigit : Char → Bool) (t : Text) : Option Text :=
  let groups := Text.pieces '_' t
  if groups.all fun g => !g.isEmpty && g.all isDigit then some groups.flatten else none

/-- Whether a character is a digit in a base. -/
def isDigitIn (base : Nat) (c : Char) : Bool := (Text.hexDigit? c).any (· < base)

/-- The sign of a number, and the rest. -/
def splitSign : Text → Bool × Text
  | '-' :: t => (true, t)
  | '+' :: t => (false, t)
  | t => (false, t)

/-- Decimal digits of which only a lone one may be a zero at the front. -/
def wholeDigits? (t : Text) : Option Text :=
  match grouped? Text.isDigit t with
  | some ('0' :: _ :: _) => none
  | ds => ds

/-- A whole number of 64 bits. -/
def inRange (i : Int) : Option Value :=
  if -9223372036854775808 ≤ i ∧ i ≤ 9223372036854775807 then some (.integer i) else none

/-- A whole number in a base other than ten. -/
def basedInteger? (base : Nat) (ds : Text) : Option Value :=
  (grouped? (isDigitIn base) ds).bind fun d => inRange (Text.digitsValue base d)

/-- A whole number. -/
def integer? (t : Text) : Option Value :=
  match t with
  | '0' :: 'x' :: ds => basedInteger? 16 ds
  | '0' :: 'o' :: ds => basedInteger? 8 ds
  | '0' :: 'b' :: ds => basedInteger? 2 ds
  | _ =>
    let (negative, ds) := splitSign t
    (wholeDigits? ds).bind fun d =>
      inRange (if negative then -(Text.digitsValue 10 d : Int) else Text.digitsValue 10 d)

/-- The double nearest to `digits · 10 ^ exponent`; numbers far outside of the range of doubles are
not computed. -/
def nearest (negative : Bool) (digits : Text) (exponent : Int) : Binary64 :=
  let significant := digits.dropWhile (· == '0')
  let n := Text.digitsValue 10 significant
  let top := exponent + significant.length
  if n = 0 ∨ top < -400 then .finite negative .zero
  else if 400 < top then .infinite negative
  else
    match Magnitude.ofRatio? (n * Nat.pow 10 exponent.toNat) (Nat.pow 10 (-exponent).toNat) with
    | some x => .finite negative x
    | none => .infinite negative

/-- The first of two signs, and what stands before and behind it. -/
def splitAtAny (signs : Text) (t : Text) : Text × Option Text :=
  match t.dropWhile fun c => !signs.contains c with
  | [] => (t, none)
  | _ :: rest => (t.takeWhile fun c => !signs.contains c, some rest)

/-- An optional group of digits, which may start with zeros. -/
def optionalDigits? : Option Text → Option (Option Text)
  | none => some none
  | some t => (grouped? Text.isDigit t).map some

/-- The value of an exponent. -/
def exponent? : Option Text → Option Int
  | none => some 0
  | some t =>
    let (negative, ds) := splitSign t
    (grouped? Text.isDigit ds).map fun d =>
      if negative then -(Text.digitsValue 10 d : Int) else Text.digitsValue 10 d

/-- A number with a fraction or an exponent; it may not lie above the largest double. -/
def float? (t : Text) : Option Value :=
  let (negative, body) := splitSign t
  let (front, power) := splitAtAny "eE".toList body
  let (whole, fraction) := splitAtAny ['.'] front
  if power.isNone && fraction.isNone then none
  else
    match wholeDigits? whole, optionalDigits? fraction, exponent? power with
    | some w, some f, some e =>
      let x := nearest negative (w ++ f.getD []) (e - (f.getD []).length)
      if x = .infinite false then none else some (.float x)
    | _, _, _ => none

/-! ## Dates and times -/

/-- A number of two digits within bounds. -/
def twoDigits? (low high : Nat) : Text → Option (Nat × Text)
  | a :: b :: rest =>
    if Text.isDigit a && Text.isDigit b then
      let n := Text.digitsValue 10 [a, b]
      if low ≤ n ∧ n ≤ high then some (n, rest) else none
    else none
  | _ => none

/-- What follows a sign. -/
def expectSign (sign : Char) : Text → Option Text
  | c :: rest => if c = sign then some rest else none
  | [] => none

/-- The number of days of a month. -/
def daysIn (year month : Nat) : Nat :=
  if month = 2 then (if year % 4 = 0 ∧ (year % 100 ≠ 0 ∨ year % 400 = 0) then 29 else 28)
  else if month = 4 ∨ month = 6 ∨ month = 9 ∨ month = 11 then 30
  else 31

/-- What follows a date. -/
def day? (t : Text) : Option Text := do
  if (t.take 4).length = 4 && (t.take 4).all Text.isDigit then
    let rest ← expectSign '-' (t.drop 4)
    let (month, rest) ← twoDigits? 1 12 rest
    let rest ← expectSign '-' rest
    let (_, rest) ← twoDigits? 1 (daysIn (Text.digitsValue 10 (t.take 4)) month) rest
    some rest
  else none

/-- What follows a time of day. -/
def clock? (t : Text) : Option Text := do
  let (_, rest) ← twoDigits? 0 23 t
  let rest ← expectSign ':' rest
  let (_, rest) ← twoDigits? 0 59 rest
  let rest ← expectSign ':' rest
  let (_, rest) ← twoDigits? 0 60 rest
  match rest with
  | '.' :: c :: more => if Text.isDigit c then some (more.dropWhile Text.isDigit) else none
  | _ => some rest

/-- Whether a text is nothing or the distance of a time from the one of Greenwich. -/
def isOffset (t : Text) : Bool :=
  match t with
  | [] => true
  | ['Z'] => true
  | ['z'] => true
  | sign :: rest =>
    (sign == '+' || sign == '-') &&
      (match twoDigits? 0 23 rest with
        | some (_, ':' :: more) => (twoDigits? 0 59 more).any (·.2.isEmpty)
        | _ => false)

/-- A date, a time, or both. -/
def date? (t : Text) : Option Value :=
  match day? t with
  | some [] => some .date
  | some (c :: rest) =>
    if c = 'T' ∨ c = 't' ∨ c = ' ' then
      (clock? rest).bind fun offset => if isOffset offset then some .date else none
    else none
  | none =>
    match clock? t with
    | some [] => some .date
    | _ => none

/-! ## Words -/

/-- The values that are written as words. -/
def word? (t : Text) : Option Value :=
  [("true".toList, Value.bool true), ("false".toList, .bool false),
    ("inf".toList, .float (.infinite false)), ("+inf".toList, .float (.infinite false)),
    ("-inf".toList, .float (.infinite true)), ("nan".toList, .float .notANumber),
    ("+nan".toList, .float .notANumber), ("-nan".toList, .float .notANumber)].lookup t

/-- A number, a date or a word. -/
def scalar? (t : Text) : Option Value :=
  match word? t with
  | some v => some v
  | none =>
    match integer? t with
    | some v => some v
    | none =>
      match float? t with
      | some v => some v
      | none => date? t

/-- The characters of numbers, dates and words. -/
def isScalarChar (c : Char) : Bool := Text.isAsciiAlphanumeric c || "+-_.:".toList.contains c

/-- The run of characters of a number, a date or a word, and the rest; a blank may stand between a
date and a time. -/
def scalarRun (t : Text) : Text × Text :=
  let run := t.takeWhile isScalarChar
  match t.dropWhile isScalarChar with
  | ' ' :: c :: rest =>
    if day? run == some [] && Text.isDigit c then
      (run ++ ' ' :: (c :: rest).takeWhile isScalarChar, (c :: rest).dropWhile isScalarChar)
    else (run, ' ' :: c :: rest)
  | rest => (run, rest)

end ChangeGate.Toml
