import ChangeGate.Text.Decimal
import ChangeGate.Text.Printable

/-! # Quoted texts

A text between double quotes as diagnostics show it: line breaks, tabs, quotes and backslashes are
escaped, and a character that cannot be told apart on paper is given by its number. A path is shown
with its apostrophes escaped as well. -/

namespace ChangeGate.Text

/-- The escape that gives a character by its number in hexadecimal. -/
def numberEscape (c : Char) : Text :=
  "\\u\x7b".toList ++ Nat.toDigits 16 c.toNat ++ ['\x7d']

/-- The form of one character inside double quotes. -/
def escapeChar (apostrophes : Bool) (c : Char) : Text :=
  if c = '\x00' then "\\0".toList
  else if c = '\t' then "\\t".toList
  else if c = '\r' then "\\r".toList
  else if c = '\n' then "\\n".toList
  else if c = '\\' then "\\\\".toList
  else if c = '"' then "\\\"".toList
  else if c = '\'' then (if apostrophes then ['\\', '\''] else ['\''])
  else if isCombining c || !isPrintable c then numberEscape c
  else [c]

/-- A text between double quotes. -/
def quoted (t : Text) : Text := '"' :: t.flatMap (escapeChar false) ++ ['"']

/-- A path between double quotes. -/
def quotedPath (t : Text) : Text := '"' :: t.flatMap (escapeChar true) ++ ['"']

/-- An optional value in diagnostics: its form inside `Some`, or `None`. -/
def optional : Option Text → Text
  | none => "None".toList
  | some t => "Some(".toList ++ t ++ [')']

end ChangeGate.Text
