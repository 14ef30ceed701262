import ChangeGate.Text.Decimal
import ChangeGate.Text.Lines
import ChangeGate.Text.Utf8

/-! # Paths

A **path** in a file tree is the list of the names on the way from its top. A path that a user gives
is a text; **names** are the parts between its slashes, and a slash at its end asks for a directory.
Failing to reach a file has a **cause** of its own kind. -/

namespace ChangeGate

/-- The names on the way to a file. -/
abbrev Path := List Text

namespace Files

/-- Why a file cannot be reached or read. -/
inductive Cause where
  /-- No such file. -/
  | absent
  /-- A file stands where a directory is needed. -/
  | notDirectory
  /-- A directory stands where a file is needed. -/
  | directory
  /-- A name or the whole path is too long. -/
  | tooLong
  /-- Links lead on and on. -/
  | tooManyLinks
  /-- The path holds a character that no path can hold. -/
  | badPath
  /-- The content is no text. -/
  | notText
  /-- There is no room for more. -/
  | noRoom
  /-- Another error of the operating system, with its number. -/
  | system (number : Nat) (phrase : Text)
deriving DecidableEq, Repr

/-- What a cause says. -/
def Cause.phrase : Cause → Text
  | .absent => "No such file or directory".toList
  | .notDirectory => "Not a directory".toList
  | .directory => "Is a directory".toList
  | .tooLong => "File name too long".toList
  | .tooManyLinks => "Too many levels of symbolic links".toList
  | .badPath => "file name contained an unexpected NUL byte".toList
  | .notText => "stream did not contain valid UTF-8".toList
  | .noRoom => "No space left on device".toList
  | .system _ phrase => phrase

/-- The number of a cause among the errors of the operating system, where it has one. -/
def Cause.number? : Cause → Option Nat
  | .absent => some 2
  | .notDirectory => some 20
  | .directory => some 21
  | .tooLong => some 36
  | .tooManyLinks => some 40
  | .badPath => none
  | .notText => none
  | .noRoom => some 28
  | .system number _ => some number

/-- What a cause says, with its number. -/
def Cause.message (c : Cause) : Text :=
  match c.number? with
  | some n => c.phrase ++ " (os error ".toList ++ Text.ofNat n ++ [')']
  | none => c.phrase

/-- The greatest length of a name in bytes. -/
def nameLimit : Nat := 255

/-- The length in bytes that a path does not reach. -/
def pathLimit : Nat := 4096

/-- Whether a text ends in a slash. -/
def endsInSlash (t : Text) : Bool := t.getLast? == some '/'

/-- Whether a text is an absolute path. -/
def isAbsolute (t : Text) : Bool := t.head? == some '/'

/-- The names of a path given as a text; a slash at the end asks for a directory, as `.` does. -/
def names (t : Text) : Path :=
  (Text.pieces '/' t).filter (· != []) ++ (if endsInSlash t then [['.']] else [])

/-- The text of a file inside a directory. -/
def inside (directory file : Text) : Text :=
  if directory = [] ∨ endsInSlash directory then directory ++ file else directory ++ '/' :: file

/-- The text of a path below the top. -/
def relative (p : Path) : Text := Text.join ['/'] p

/-- The text of an absolute path. -/
def absolute (p : Path) : Text := '/' :: relative p

end Files

end ChangeGate
