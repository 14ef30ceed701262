import ChangeGate.Report.Layout

/-! # The report as JSON

**json** writes a report as one object with the members `changed`, `files` and `included`, indented by
two spaces, and a final line feed. A list without elements is written on one line. **quote** writes a
text as a string of JSON: only quotation marks, backslashes and control characters are escaped, and
every other character stands for itself. -/

namespace ChangeGate.Json

/-- The form of a character in a string of JSON. -/
def quoteChar (c : Char) : Text :=
  if c = '"' then "\\\"".toList
  else if c = '\\' then "\\\\".toList
  else if c = '\x08' then "\\b".toList
  else if c = '\t' then "\\t".toList
  else if c = '\n' then "\\n".toList
  else if c = '\x0c' then "\\f".toList
  else if c = '\r' then "\\r".toList
  else if c.toNat < 0x20 then "\\u".toList ++ Text.zeroPad 4 (Nat.toDigits 16 c.toNat)
  else [c]

/-- The inside of a string of JSON. -/
def quoteBody (t : Text) : Text := t.flatMap quoteChar

/-- A text as a string of JSON. -/
def quote (t : Text) : Text := '"' :: quoteBody t ++ ['"']

@[simp] theorem quoteBody_nil : quoteBody [] = [] := rfl

@[simp] theorem quoteBody_cons (c : Char) (t : Text) :
    quoteBody (c :: t) = quoteChar c ++ quoteBody t := by simp [quoteBody]

end ChangeGate.Json

namespace ChangeGate.Report

/-- The elements of a list of strings, one to a line, with commas between them. -/
def elementLines : List Text → Text
  | [] => []
  | [t] => "\n    ".toList ++ Json.quote t
  | t :: u :: rest => "\n    ".toList ++ Json.quote t ++ [','] ++ elementLines (u :: rest)

/-- A list of strings as a member of an object. -/
def listText : List Text → Text
  | [] => "[]".toList
  | ts => ['['] ++ elementLines ts ++ "\n  ]".toList

/-- The report as a text of JSON. -/
def json (r : Report) : Text :=
  "\x7b\n  \"changed\": ".toList ++ Text.ofBool r.changed ++
    ",\n  \"files\": ".toList ++ listText r.files ++
    ",\n  \"included\": ".toList ++ listText r.included ++ "\n\x7d\n".toList

end ChangeGate.Report
