import ChangeGate.Text.Blank

/-! # Globs and the paths they match

A glob is read from left to right into **tokens**: two adjacent stars are one token for any text, a
single star stands for any text without a slash, a question mark for one character other than a
slash, and every other character for itself. **Matches** is the language of a token list: a path
matches when it can be cut into consecutive pieces that the tokens accept in order. **expression**
writes a glob as an anchored regular expression over the whole path, in which a character that has a
meaning of its own in expressions is preceded by a backslash. -/

namespace ChangeGate.Glob

/-! ## Tokens -/

/-- What one place of a glob stands for. -/
inductive Token where
  /-- A character that stands for itself. -/
  | literal (c : Char)
  /-- One character other than a slash. -/
  | one
  /-- Any text without a slash, the empty one included. -/
  | segment
  /-- Any text at all. -/
  | any
deriving DecidableEq, Repr

/-- The tokens of a glob; two adjacent stars are taken together as early as possible. -/
def tokens : Text → List Token
  | [] => []
  | '*' :: '*' :: rest => .any :: tokens rest
  | c :: rest =>
    (if c = '*' then .segment else if c = '?' then .one else .literal c) :: tokens rest

/-- The glob that tokens are read from. -/
def Token.glob : Token → Text
  | .literal c => [c]
  | .one => ['?']
  | .segment => ['*']
  | .any => ['*', '*']

/-- The pieces of a path that a token accepts. -/
def Token.Accepts : Token → Text → Prop
  | .literal c, piece => piece = [c]
  | .one, piece => ∃ c, c ≠ '/' ∧ piece = [c]
  | .segment, piece => '/' ∉ piece
  | .any, _ => True

@[simp] theorem Token.accepts_literal (c : Char) (piece : Text) :
    (Token.literal c).Accepts piece ↔ piece = [c] := Iff.rfl

@[simp] theorem Token.accepts_one (piece : Text) :
    Token.one.Accepts piece ↔ ∃ c, c ≠ '/' ∧ piece = [c] := Iff.rfl

@[simp] theorem Token.accepts_segment (piece : Text) :
    Token.segment.Accepts piece ↔ '/' ∉ piece := Iff.rfl

@[simp] theorem Token.accepts_any (piece : Text) : Token.any.Accepts piece := trivial

/-- The paths that can be cut into consecutive pieces accepted by the tokens in order. -/
inductive Matches : List Token → Text → Prop where
  /-- No tokens match the empty path. -/
  | nil : Matches [] []
  /-- A piece for the first token, and what follows for the others. -/
  | cons {t : Token} {ts : List Token} {piece rest : Text} :
      t.Accepts piece → Matches ts rest → Matches (t :: ts) (piece ++ rest)

/-- A glob has no wildcard when every character of it stands for itself. -/
def isLiteral (glob : Text) : Bool := glob.all fun c => c != '*' && c != '?'

/-! ## Regular expressions -/

/-- The characters with a meaning of their own in regular expressions. -/
def isMeta (c : Char) : Bool := "\\.+*?()|[]\x7b\x7d^$#&-~".toList.contains c

/-- A character as a regular expression that matches only it. -/
def escape (c : Char) : Text := if isMeta c then ['\\', c] else [c]

/-- A token as a regular expression; a point there matches every character. -/
def Token.expression : Token → Text
  | .literal c => escape c
  | .one => "[^/]".toList
  | .segment => "[^/]*".toList
  | .any => ".*".toList

/-- A glob as a regular expression anchored at both ends. -/
def expression (glob : Text) : Text := '^' :: (tokens glob).flatMap Token.expression ++ ['$']

end ChangeGate.Glob
