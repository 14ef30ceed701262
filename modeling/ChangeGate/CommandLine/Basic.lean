import ChangeGate.Text.Blank

/-! # Invocations

What the arguments of a command line ask for: a command with its own options, and the options that
every command takes. -/

namespace ChangeGate.CommandLine

/-- The formats of a report. -/
inductive Format where
  /-- For people. -/
  | text
  /-- For programs. -/
  | json
deriving DecidableEq, Repr

/-- The options of the command that checks the pull request of a workflow. -/
structure DetectOptions where
  /-- The pattern list. -/
  patterns : Option Text
  /-- The output file. -/
  outputFile : Option Text
  /-- The output key. -/
  outputKey : Option Text
  /-- The address of the server. -/
  address : Option Text
  /-- Whether a failure ends the run. -/
  strict : Bool
deriving DecidableEq, Repr

/-- The pattern list of the command that matches files. -/
inductive PatternSource where
  /-- The list itself. -/
  | given (patterns : Text)
  /-- The path of a file with the list. -/
  | file (path : Text)
deriving DecidableEq, Repr

/-- The files that are matched. -/
inductive FileSource where
  /-- The names themselves; at least one. -/
  | given (first : Text) (more : List Text)
  /-- The lines of standard input. -/
  | input
  /-- The files that changed since a revision. -/
  | changedSince (base : Text)
deriving DecidableEq, Repr

/-- The options of the command that matches files. -/
structure MatchOptions where
  /-- Where the patterns come from. -/
  patterns : PatternSource
  /-- Where the files come from. -/
  files : FileSource
  /-- Whether the exit status tells if some file is included. -/
  exitCode : Bool
deriving DecidableEq, Repr

/-- A command with its options. -/
inductive Command where
  /-- Check the pull request of a workflow. -/
  | detect (options : DetectOptions)
  /-- Match files. -/
  | match_ (options : MatchOptions)
deriving DecidableEq, Repr

/-- What a command line asks for. -/
structure Invocation where
  /-- The path of the configuration. -/
  config : Option Text
  /-- The format of the report. -/
  format : Format
  /-- The command, if there is one. -/
  command : Option Command
deriving DecidableEq, Repr

/-- The levels of a command line: before a command, and after one. -/
inductive Level where
  /-- Before any command. -/
  | top
  /-- After the command `detect`. -/
  | detect
  /-- After the command `match`. -/
  | match_
deriving DecidableEq, Repr

/-- What help can be asked about. -/
inductive Topic where
  /-- A level of the command line. -/
  | level (l : Level)
  /-- The command that gives help. -/
  | help
deriving DecidableEq, Repr

/-- Why a command line is refused. -/
inductive Refusal where
  /-- An option has no value, or one that it cannot have. -/
  | invalidValue
  /-- There is no such option, or nothing more may be given. -/
  | unknownArgument
  /-- There is no such command. -/
  | unknownCommand
  /-- An option is given twice, or together with one that it excludes. -/
  | conflict
  /-- Something that is needed is not given. -/
  | missing
  /-- An option without a value is given one. -/
  | needlessValue
deriving DecidableEq, Repr

/-- Why a command line asks for no run of the program. -/
inductive Stop where
  /-- It is refused. -/
  | refused (why : Refusal)
  /-- It asks for help. -/
  | help (topic : Topic)
  /-- It asks for the version. -/
  | version (level : Level)
deriving DecidableEq, Repr

end ChangeGate.CommandLine
