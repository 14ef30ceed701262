import ChangeGate.Text.Lines

/-! # Entries of a pattern list

A pattern list is a text with one item to a line, marked by a dash. **entry?** reads a line: the
marker, the white space around the item and one pair of quotes around it are dropped. Lines without a
marker are skipped, so every text is a pattern list. **sign** then splits an entry into its sign and
its glob. -/

namespace ChangeGate.Pattern

/-- A text without a quote mark at each end, if it starts and ends with that mark; a lone mark counts
as both ends. -/
def unquote? (mark : Char) (t : Text) : Option Text :=
  if t.head? = some mark ∧ t.getLast? = some mark then some (t.drop 1).dropLast else none

/-- A text without one pair of matching quote marks around it. -/
def unquote (t : Text) : Text :=
  match unquote? '"' t with
  | some inner => inner
  | none => (unquote? '\'' t).getD t

/-- The item that a line holds behind a marker. -/
def entry? (line : Text) : Option Text :=
  match Text.trim line with
  | '-' :: item => some (unquote (Text.trim item))
  | _ => none

/-- The entries of a pattern list, in order. -/
def entries (t : Text) : List Text := (Text.lines t).filterMap entry?

/-- Whether an entry excludes, and its glob: a leading exclamation mark is no part of the glob, nor is
the white space around it. -/
def sign (entry : Text) : Bool × Text :=
  match Text.trim entry with
  | '!' :: rest => (true, Text.trim rest)
  | glob => (false, glob)

@[simp] theorem entries_nil : entries [] = [] := rfl

end ChangeGate.Pattern
