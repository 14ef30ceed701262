import ChangeGate.Glob.Token
import ChangeGate.Text.Decimal

/-! # Matchers

A glob without wildcards is compared with the path as it is, a literal text before two final stars is
compared with the start of the path, and every other glob is matched token by token: **row** turns the
answers of the remaining tokens on every suffix of a path into the answers of one token more, and
**table** folds it over a token list from the right, so a path is decided in time proportional to its
length times the number of tokens. The first answer is the one for the whole path.

Only globs of the last kind can be too large: the **engine** that compiles their expressions decides
which ones. -/

namespace ChangeGate.Glob

/-! ## Deciding whether tokens match a path -/

/-- Whether a token alone can take a character of a path and let the remaining tokens take the rest:
`next` says whether the remaining tokens match after the character, `here` whether they match
before it, and `again` whether this token and the remaining ones match after it. -/
def Token.takes (c : Char) (here next again : Bool) : Token → Bool
  | .literal a => c == a && next
  | .one => c != '/' && next
  | .segment => here || (c != '/' && again)
  | .any => here || again

/-- Whether a token can take the end of a path when the remaining tokens match there or not. -/
def Token.takesEnd (here : Bool) : Token → Bool
  | .literal _ => false
  | .one => false
  | .segment => here
  | .any => here

/-- The answers of a token followed by other tokens on all suffixes of a path, from the answers of
those other tokens. -/
def row (t : Token) : Text → List Bool → List Bool
  | [], old => [t.takesEnd (old.headD false)]
  | c :: path, old =>
    let below := row t path old.tail
    t.takes c (old.headD false) (old.tail.headD false) (below.headD false) :: below

/-- The answers of no tokens at all: only the empty suffix matches. -/
def lastRow : Text → List Bool
  | [] => [true]
  | _ :: path => false :: lastRow path

/-- The answers of a token list on all suffixes of a path. -/
def table (path : Text) : List Token → List Bool
  | [] => lastRow path
  | t :: ts => row t path (table path ts)

/-- Whether tokens match a whole path. -/
def matchesTokens (ts : List Token) (path : Text) : Bool := (table path ts).headD false

/-! ## Matchers -/

/-- The ways in which a compiled glob decides a path. -/
inductive Matcher where
  /-- The path is this text. -/
  | exact (text : Text)
  /-- The path starts with this text. -/
  | lead (text : Text)
  /-- The path is cut into pieces for the tokens of this glob. -/
  | general (glob : Text)
deriving DecidableEq, Repr

/-- Whether a matcher accepts a whole path. -/
def Matcher.accepts : Matcher → Text → Bool
  | .exact text, path => path == text
  | .lead text, path => text.isPrefixOf path
  | .general glob, path => matchesTokens (tokens glob) path

/-! ## Engines -/

/-- An engine that compiles regular expressions. It refuses those whose compiled form is too large, and
which ones these are is up to the engine. -/
class Engine where
  /-- Whether the compiled form of an expression is small enough. -/
  fits : Text → Bool

/-- The glob whose compiled expression would take too much room. -/
structure TooLarge where
  glob : Text
deriving DecidableEq, Repr

/-- The room in bytes that a compiled expression may take. -/
def sizeLimit : Nat := 10485760

/-- Why an expression was refused. -/
def TooLarge.reason (_ : TooLarge) : Text :=
  "Compiled regex exceeds size limit of ".toList ++ Text.ofNat sizeLimit ++ " bytes.".toList

/-- The glob and why it was refused. -/
def TooLarge.message (e : TooLarge) : Text :=
  "invalid glob `".toList ++ e.glob ++ "`: ".toList ++ e.reason

/-! ## Compiling -/

/-- What precedes two final stars. -/
def beforeDoubleStar? (glob : Text) : Option Text :=
  match glob.reverse with
  | '*' :: '*' :: front => some front.reverse
  | _ => none

section Compile

variable [Engine]

/-- The matcher of a glob that is no literal. -/
def compileWild (glob : Text) : Except TooLarge Matcher :=
  if Engine.fits (expression glob) then .ok (.general glob) else .error ⟨glob⟩

/-- The cheapest matcher that decides as the tokens of the glob do. -/
def compile (glob : Text) : Except TooLarge Matcher :=
  if isLiteral glob then .ok (.exact glob)
  else match beforeDoubleStar? glob with
    | some front => if isLiteral front then .ok (.lead front) else compileWild glob
    | none => compileWild glob

end Compile

/-! ## An estimate -/

/-- The room in bytes that a compiled expression takes, roughly: much for a class of characters, little for
a character. -/
def estimatedRoom : Text → Nat
  | [] => 0
  | '\\' :: _ :: rest => 32 + estimatedRoom rest
  | '[' :: rest => 504 + estimatedRoom rest
  | '.' :: rest => 600 + estimatedRoom rest
  | _ :: rest => 32 + estimatedRoom rest

/-- The engine that the program runs with estimates the room. -/
instance : Engine where
  fits e := estimatedRoom e ≤ sizeLimit

end ChangeGate.Glob
