import ChangeGate.Program.Reporting
import ChangeGate.Text.Lines

/-! # Matching files

**matchFiles** matches the files that are named, given on standard input or changed since a revision
against patterns, and prints a report. On demand the exit status tells whether a file is included.

A list of files on standard input is given one to a line. Lines are read one by one, and each has to be a
text; the white space around a name and lines without a name are dropped. -/

namespace ChangeGate.Program

/-! ## File lists -/

/-- The lines of some bytes, each a text; nothing if one of them is not. -/
def textLines? (bytes : Text.Bytes) : Option (List Text) :=
  (Text.linesOf 10 13 bytes).mapM Text.decode?

/-- The names in some lines. -/
def namesIn (lines : List Text) : List Text := (lines.map Text.trim).filter fun t => !t.isEmpty

/-- The names in some bytes; nothing if they are no text. -/
def fileList? (bytes : Text.Bytes) : Option (List Text) := (textLines? bytes).map namesIn

@[simp] theorem fileList?_nil : fileList? [] = some [] := rfl

/-! ## The command -/

open CommandLine (MatchOptions PatternSource FileSource Format)

variable {m : Type → Type} [Monad m] [Host m] [Glob.Engine]

/-- The text of a pattern file. -/
def readPatterns (path : Text) : m (Except Failure Text) := do
  match ← Host.readText path with
  | .error e => pure (.error (.file path e.message))
  | .ok t => pure (.ok t)

/-- The pattern list of a source. -/
def patternsOf : PatternSource → m (Except Failure Text)
  | .given t => pure (.ok t)
  | .file path => readPatterns path

/-- What the log says of changed files. -/
def changesEvent (base : Text) (files : List Text) : Log.Event :=
  .debug .git (Text.ofNat files.length ++ " files changed since ".toList ++ base)

/-- The files that changed since a revision. -/
def changedSince (base : Text) : m (Except Failure (List Text)) := do
  if ← Host.inRepository then
    match ← Host.changedSince base with
    | .error e => pure (.error (.repository e.message))
    | .ok files => do
      Host.log (changesEvent base files)
      pure (.ok files)
  else pure (.error (.noRepository base))

/-- The files on standard input. -/
def readFiles : m (Except Failure (List Text)) := do
  match fileList? (← Host.readInput) with
  | none => pure (.error (.input Files.Cause.notText.message))
  | some files => pure (.ok files)

/-- The files of a source. -/
def filesOf : FileSource → m (Except Failure (List Text))
  | .given first more => pure (.ok (first :: more))
  | .input => readFiles
  | .changedSince base => changedSince base

/-- The exit status after a report. -/
def statusAfter (o : MatchOptions) (r : Report) : ExitStatus :=
  if o.exitCode && !r.changed then .noMatch else .success

/-- The command that matches files. -/
def matchFiles (format : Format) (o : MatchOptions) : m (Except Failure ExitStatus) := do
  match ← patternsOf o.patterns with
  | .error f => pure (.error f)
  | .ok patterns => do
    match ← compile patterns with
    | .error f => pure (.error f)
    | .ok rules => do
      match ← filesOf o.files with
      | .error f => pure (.error f)
      | .ok files => do
        let report := Report.of rules files
        printReport format report
        pure (.ok (statusAfter o report))

end ChangeGate.Program
