import ChangeGate.Text.Decimal

/-! # Strings of TOML

A string stands between quotation marks, in which a backslash starts an escape, or between
apostrophes, in which nothing is escaped. Three marks at each end let a string go over several lines;
up to two further marks may stand just before the end. -/

namespace ChangeGate.Toml

/-- Control characters, which may not stand in strings and comments; a tab may. -/
def isForbidden (c : Char) : Bool := (c.toNat < 0x20 && c != '\t') || c == '\x7f'

/-- Blanks within a line. -/
def isBlank (c : Char) : Bool := c == ' ' || c == '\t'

/-- What follows the blanks that start a text. -/
def skipBlanks (t : Text) : Text := t.dropWhile isBlank

/-- What follows a line end. -/
def newline? : Text → Option Text
  | '\n' :: rest => some rest
  | '\x0d' :: '\n' :: rest => some rest
  | _ => none

/-- A character given by so many hexadecimal digits, and the rest. -/
def numbered? (digits : Nat) (t : Text) : Option (Char × Text) :=
  let ds := t.take digits
  let n := Text.digitsValue 16 ds
  if ds.length = digits && ds.all (fun c => (Text.hexDigit? c).isSome) && n.isValidChar then
    some (Char.ofNat n, t.drop digits)
  else none

/-- The character of an escape, after the backslash, and the rest. -/
def escape? : Text → Option (Char × Text)
  | 'b' :: rest => some ('\x08', rest)
  | 't' :: rest => some ('\t', rest)
  | 'n' :: rest => some ('\n', rest)
  | 'f' :: rest => some ('\x0c', rest)
  | 'r' :: rest => some ('\x0d', rest)
  | '"' :: rest => some ('"', rest)
  | '\\' :: rest => some ('\\', rest)
  | 'u' :: rest => numbered? 4 rest
  | 'U' :: rest => numbered? 8 rest
  | _ => none

/-- A string on one line, after its opening mark, and the rest. -/
def lineString? (mark : Char) : Nat → Text → Option (Text × Text)
  | 0, _ => none
  | _ + 1, [] => none
  | fuel + 1, c :: rest =>
    if c = mark then some ([], rest)
    else if c = '\\' && mark == '"' then
      (escape? rest).bind fun (d, rest') =>
        (lineString? mark fuel rest').map fun (s, r) => (d :: s, r)
    else if isForbidden c then none
    else (lineString? mark fuel rest).map fun (s, r) => (c :: s, r)

/-- What follows the blanks and line ends that start a text. -/
def skipLines : Text → Text
  | '\x0d' :: '\n' :: rest => skipLines rest
  | '\n' :: rest => skipLines rest
  | c :: rest => if isBlank c then skipLines rest else c :: rest
  | [] => []

/-- What follows the white space on this and further lines, if the line ends after it. -/
def continued? (t : Text) : Option Text := (newline? (skipBlanks t)).map skipLines

/-- A string over several lines, after its opening marks, and the rest. -/
def blockString? (mark : Char) : Nat → Text → Option (Text × Text)
  | 0, _ => none
  | _ + 1, [] => none
  | fuel + 1, c :: rest =>
    if c = mark then
      let marks := (c :: rest).takeWhile (· == mark)
      let rest' := (c :: rest).dropWhile (· == mark)
      if 5 < marks.length then none
      else if 3 ≤ marks.length then some (marks.drop 3, rest')
      else (blockString? mark fuel rest').map fun (s, r) => (marks ++ s, r)
    else if c = '\\' && mark == '"' then
      match continued? rest with
      | some rest' => blockString? mark fuel rest'
      | none =>
        (escape? rest).bind fun (d, rest') =>
          (blockString? mark fuel rest').map fun (s, r) => (d :: s, r)
    else
      match newline? (c :: rest) with
      | some rest' => (blockString? mark fuel rest').map fun (s, r) => ('\n' :: s, r)
      | none =>
        if isForbidden c then none
        else (blockString? mark fuel rest).map fun (s, r) => (c :: s, r)

/-- A string with the given marks, after the first of them, and the rest. A line end just after three
marks is no part of the string. -/
def string? (mark : Char) (t : Text) : Option (Text × Text) :=
  match t with
  | a :: b :: rest =>
    if a = mark ∧ b = mark then blockString? mark (rest.length + 1) ((newline? rest).getD rest)
    else lineString? mark (t.length + 1) t
  | _ => lineString? mark (t.length + 1) t

end ChangeGate.Toml
