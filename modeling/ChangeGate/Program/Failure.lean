import ChangeGate.Config.Basic
import ChangeGate.Glob.Matcher
import ChangeGate.PullRequest.Basic
import ChangeGate.Repository.Changes

/-! # Failures

A **failure** ends a run. It says what went wrong, and its **kind** decides about the exit status: a
mistake of the user is told from a fault of the surroundings. Where a failure is shown in **full**, the
causes behind it follow. -/

namespace ChangeGate

/-- The statuses with which the program ends. -/
inductive ExitStatus where
  /-- All went well. -/
  | success
  /-- No file is included. -/
  | noMatch
  /-- The user made a mistake. -/
  | misuse
  /-- The surroundings are at fault. -/
  | trouble
  /-- The pages of a listing outnumbered their counter. A run that checks its arithmetic is broken off with
  this status, and another one never ends. What is said of it on standard error is left out. -/
  | overflow
deriving DecidableEq, Repr

/-- The number of a status. -/
def ExitStatus.code : ExitStatus → Nat
  | .success => 0
  | .noMatch => 1
  | .misuse => 2
  | .trouble => 3
  | .overflow => 101

namespace Failure

/-- The kinds of failures. -/
inductive Kind where
  /-- The configuration is refused. -/
  | config
  /-- An argument is missing or wrong. -/
  | argument
  /-- A pattern cannot be compiled. -/
  | pattern
  /-- A file cannot be read or written. -/
  | file
  /-- The pull request or its files are not found. -/
  | pullRequest
  /-- The changes of a repository are not found. -/
  | repository
  /-- Standard input cannot be read. -/
  | input
deriving DecidableEq, Repr

/-- What precedes the wording of a failure. -/
def Kind.label : Kind → Text
  | .config => "config error: ".toList
  | .argument => "argument error: ".toList
  | .pattern => []
  | .file => "io error: ".toList
  | .pullRequest => "github error: ".toList
  | .repository => "git error: ".toList
  | .input => []

/-- The status with which a run ends after a failure. -/
def Kind.status : Kind → ExitStatus
  | .config => .misuse
  | .argument => .misuse
  | .pattern => .misuse
  | .file => .trouble
  | .pullRequest => .trouble
  | .repository => .trouble
  | .input => .trouble

end Failure

/-- What ends a run. -/
structure Failure where
  kind : Failure.Kind
  /-- What went wrong. -/
  wording : Text
  /-- The causes behind it, the nearest one first. -/
  causes : List Text
  /-- Whether a counter has overflowed, which nothing makes up for. -/
  overflowed : Bool := false
deriving DecidableEq, Repr

namespace Failure

/-- The message of a failure. -/
def message (f : Failure) : Text := f.kind.label ++ f.wording

/-- The message of a failure and the causes behind it. -/
def full (f : Failure) : Text := Text.join ": ".toList (f.message :: f.causes)

/-- The status with which a run ends after a failure. -/
def status (f : Failure) : ExitStatus := f.kind.status

/-- A refused configuration. -/
def config (wording : Text) : Failure := { kind := .config, wording, causes := [] }

/-- A missing or wrong argument. -/
def argument (wording : Text) : Failure := { kind := .argument, wording, causes := [] }

/-- A pattern that cannot be compiled. -/
def pattern (e : Glob.TooLarge) : Failure where
  kind := .pattern
  wording := e.message
  causes := [e.reason]

/-- A file that cannot be read or written. -/
def file (path cause : Text) : Failure where
  kind := .file
  wording := path ++ ": ".toList ++ cause
  causes := [cause]

/-- A pull request that is not found, or whose files are not. -/
def pullRequest (f : PullRequest.Fault) : Failure where
  kind := .pullRequest
  wording := f.message
  causes := f.message :: f.causes
  overflowed := f == .request .overflow

/-- Changes that are not found. -/
def repository (wording : Text) : Failure := { kind := .repository, wording, causes := [] }

/-- Standard input that cannot be read. -/
def input (cause : Text) : Failure := { kind := .input, wording := cause, causes := [] }

/-- A key that is no output key. -/
def badKey (key : Text) (cause : Action.KeyFault) : Failure :=
  argument ("invalid output key `".toList ++ key ++ "`: ".toList ++ cause.message)

/-- No patterns. -/
def noPatterns : Failure := argument "input required and not supplied: file-patterns".toList

/-- No output file. -/
def noOutputFile : Failure := argument "GITHUB_OUTPUT is not set".toList

/-- A base revision outside of a repository. -/
def noRepository (base : Text) : Failure :=
  argument ("--base ".toList ++ base ++ " requires a git repository".toList)

end Failure

end ChangeGate
