import ChangeGate.Json.Fault

/-! # Strings of JSON

**readString** reads a string after its opening quotation mark, one **stringStep** for each character
of the result: escapes are resolved and two escaped surrogates are one character. **ignoreString**
only looks for the end of the string, so the value of an escape does not matter there. -/

namespace ChangeGate.Json

/-- The value of four hexadecimal digits, and the rest. -/
def hexFour (t : Text) : Except Fault (Nat × Text) :=
  if Text.byteLength t < 4 then .error ⟨.endInString, 0⟩
  else
    match t with
    | a :: b :: c :: d :: rest =>
      if [a, b, c, d].all fun x => (Text.hexDigit? x).isSome then
        .ok (Text.digitsValue 16 [a, b, c, d], rest)
      else .error ⟨.invalidEscape, Text.byteLength t - 4⟩
    | _ => .error ⟨.invalidEscape, Text.byteLength t - 4⟩

/-- Leading halves of surrogate pairs. -/
def isHighSurrogate (n : Nat) : Bool := 0xD800 ≤ n && n ≤ 0xDBFF

/-- Trailing halves of surrogate pairs. -/
def isLowSurrogate (n : Nat) : Bool := 0xDC00 ≤ n && n ≤ 0xDFFF

/-- The character of a surrogate pair. -/
def pairChar (high low : Nat) : Char := Char.ofNat ((high - 0xD800) * 0x400 + (low - 0xDC00) + 0x10000)

/-- A character given by hexadecimal digits, after `\u`. -/
def unicodeEscape (t : Text) : Except Fault (Char × Text) :=
  match hexFour t with
  | .error f => .error f
  | .ok (n, rest) =>
    if isLowSurrogate n then .error (.before .loneSurrogate rest)
    else if !isHighSurrogate n then .ok (Char.ofNat n, rest)
    else
      match rest with
      | [] => .error (.before .endInString [])
      | '\\' :: [] => .error (.before .endInString [])
      | '\\' :: 'u' :: rest' =>
        match hexFour rest' with
        | .error f => .error f
        | .ok (m, rest'') =>
          if isLowSurrogate m then .ok (pairChar n m, rest'')
          else .error (.before .loneSurrogate rest'')
      | '\\' :: rest' => .error (.past .endOfHexEscape rest')
      | _ => .error (.past .endOfHexEscape rest)

/-- The character of an escape of one letter. -/
def simpleEscape? (c : Char) : Option Char :=
  if c = '"' then some '"'
  else if c = '\\' then some '\\'
  else if c = '/' then some '/'
  else if c = 'b' then some '\x08'
  else if c = 'f' then some '\x0c'
  else if c = 'n' then some '\n'
  else if c = 'r' then some '\r'
  else if c = 't' then some '\t'
  else none

/-- A character given by an escape, after the backslash. -/
def escapedChar (t : Text) : Except Fault (Char × Text) :=
  match t with
  | [] => .error (.before .endInString [])
  | 'u' :: rest => unicodeEscape rest
  | c :: rest =>
    match simpleEscape? c with
    | some d => .ok (d, rest)
    | none => .error (.past .invalidEscape (c :: rest))

/-- One step through a string: a character, or its end. -/
def stringStep (t : Text) : Except Fault (Option Char × Text) :=
  match t with
  | [] => .error (.before .endInString [])
  | '"' :: rest => .ok (none, rest)
  | '\\' :: rest => (escapedChar rest).map fun (c, r) => (some c, r)
  | c :: rest =>
    if c.toNat < 0x20 then .error (.before .controlCharacter rest) else .ok (some c, rest)

/-- The string that ends within `fuel` steps, and the rest. -/
def readStringWithin : Nat → Text → Except Fault (Text × Text)
  | 0, t => .error (.before .endInString t)
  | fuel + 1, t =>
    match stringStep t with
    | .error f => .error f
    | .ok (none, rest) => .ok ([], rest)
    | .ok (some c, rest) => (readStringWithin fuel rest).map fun (s, r) => (c :: s, r)

/-- The string that a text starts with, after its opening quotation mark, and the rest. -/
def readString (t : Text) : Except Fault (Text × Text) := readStringWithin (t.length + 1) t

/-- The rest of a text after a string that ends within `fuel` steps. -/
def ignoreStringWithin : Nat → Text → Except Fault Text
  | 0, t => .error (.before .endInString t)
  | _ + 1, [] => .error (.before .endInString [])
  | _ + 1, '"' :: rest => .ok rest
  | _ + 1, ['\\'] => .error (.before .endInString [])
  | fuel + 1, '\\' :: 'u' :: rest =>
    match hexFour rest with
    | .error f => .error f
    | .ok (_, rest') => ignoreStringWithin fuel rest'
  | fuel + 1, '\\' :: c :: rest =>
    if (simpleEscape? c).isSome then ignoreStringWithin fuel rest
    else .error (.past .invalidEscape (c :: rest))
  | fuel + 1, c :: rest =>
    if c.toNat < 0x20 then .error (.before .controlCharacter (c :: rest))
    else ignoreStringWithin fuel rest

/-- The rest of a text after a string whose value does not matter. -/
def ignoreString (t : Text) : Except Fault Text := ignoreStringWithin (t.length + 1) t

end ChangeGate.Json
