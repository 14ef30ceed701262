import ChangeGate.CommandLine.Basic

/-! # Options

The options of each level of a command line: their names, whether they take a value and which one, and
the environment variables that stand in for them. -/

namespace ChangeGate.CommandLine

/-- The options. -/
inductive Flag where
  | config
  | output
  | patterns
  | outputFile
  | outputKey
  | address
  | strict
  | patternsFile
  | base
  | exitCode
  | help
  | version
deriving DecidableEq, Repr

namespace Flag

/-- The name of an option after two dashes. -/
def name : Flag → Text
  | .config => "config".toList
  | .output => "output".toList
  | .patterns => "patterns".toList
  | .outputFile => "github-output".toList
  | .outputKey => "output-key".toList
  | .address => "api-url".toList
  | .strict => "strict".toList
  | .patternsFile => "patterns-file".toList
  | .base => "base".toList
  | .exitCode => "exit-code".toList
  | .help => "help".toList
  | .version => "version".toList

/-- The letter of an option after one dash. -/
def letter? : Flag → Option Char
  | .config => some 'C'
  | .output => some 'o'
  | .help => some 'h'
  | .version => some 'V'
  | _ => none

/-- Whether an option takes a value. -/
def takesValue : Flag → Bool
  | .strict => false
  | .exitCode => false
  | .help => false
  | .version => false
  | _ => true

/-- Whether the value of an option may start with a dash. -/
def takesDashes (f : Flag) : Bool := f == .patterns

/-- Whether an option may have a value: a path may not be empty, and a format must be known. -/
def accepts : Flag → Text → Bool
  | .config, v => !v.isEmpty
  | .outputFile, v => !v.isEmpty
  | .patternsFile, v => !v.isEmpty
  | .output, v => v == "text".toList || v == "json".toList
  | _, _ => true

/-- The environment variable that stands in for an option. -/
def standIn? : Level → Flag → Option Text
  | _, .config => some "PATHGATE_CONFIG".toList
  | .detect, .patterns => some "INPUT_FILE-PATTERNS".toList
  | .detect, .outputFile => some "GITHUB_OUTPUT".toList
  | .detect, .address => some "GITHUB_API_URL".toList
  | _, _ => none

/-- All the variables that stand in for options. -/
def standIns : List Text :=
  ["PATHGATE_CONFIG".toList, "INPUT_FILE-PATTERNS".toList, "GITHUB_OUTPUT".toList,
    "GITHUB_API_URL".toList]

end Flag

namespace Level

/-- The options of a level. -/
def flags : Level → List Flag
  | .top => [.config, .output, .help, .version]
  | .detect =>
    [.config, .patterns, .outputFile, .output, .outputKey, .address, .strict, .help, .version]
  | .match_ =>
    [.config, .patterns, .output, .patternsFile, .base, .exitCode, .help, .version]

/-- The option of a name. -/
def named? (l : Level) (name : Text) : Option Flag := l.flags.find? fun f => f.name == name

/-- The option of a letter. -/
def lettered? (l : Level) (c : Char) : Option Flag := l.flags.find? fun f => f.letter? == some c

/-- The level after a command. -/
def ofCommand? (t : Text) : Option Level :=
  [("detect".toList, Level.detect), ("match".toList, .match_)].lookup t

end Level

end ChangeGate.CommandLine
