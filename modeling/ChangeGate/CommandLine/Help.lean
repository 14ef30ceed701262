import ChangeGate.CommandLine.Basic

/-! # Help

The texts that tell how a command line is written, and the version. An option that a variable stands
in for is listed with the value of the variable. -/

namespace ChangeGate.CommandLine

/-- Lines as a text. -/
def block (lines : List Text) : Text := lines.flatMap fun l => l ++ ['\n']

/-- A text whose lines after the first one start at a column. -/
def indented (column : Nat) (t : Text) : Text :=
  t.flatMap fun c => if c = '\n' then '\n' :: List.replicate column ' ' else [c]

/-- What is known about an option, with the value of the variable that stands in for it. -/
def described (lookup : Text → Option Text) (column : Nat) (line source : String) : Text :=
  line.toList ++ " [env: ".toList ++ source.toList ++
    '=' :: indented column ((lookup source.toList).getD []) ++ [']']

/-- The help of the top level. -/
def topHelp (lookup : Text → Option Text) : Text := block [
  "Gate CI jobs on whether changed files match a glob pattern list".toList,
  [],
  "Usage: pathgate [OPTIONS] [COMMAND]".toList,
  [],
  "Commands:".toList,
  "  detect  Check the triggering pull request and set the action output".toList,
  "  match   Match a local file list or git diff against patterns".toList,
  "  help    Print this message or the help of the given subcommand(s)".toList,
  [],
  "Options:".toList,
  described lookup 25 "  -C, --config <CONFIG>  Use specific config file" "PATHGATE_CONFIG",
  "  -o, --output <OUTPUT>  Report format [default: text] [possible values: text, json]".toList,
  "  -h, --help             Print help".toList,
  "  -V, --version          Print version".toList]

/-- The help of the command that checks the pull request of a workflow. -/
def detectHelp (lookup : Text → Option Text) : Text := block [
  "Check the triggering pull request and set the action output".toList,
  [],
  "Usage: pathgate detect [OPTIONS]".toList,
  [],
  "Options:".toList,
  described lookup 30 "  -C, --config <CONFIG>       Use specific config file" "PATHGATE_CONFIG",
  described lookup 30
    "      --patterns <TEXT>       Pattern list, one `- glob` per line (`!` excludes)"
    "INPUT_FILE-PATTERNS",
  described lookup 30 "      --github-output <FILE>  File the action output is appended to"
    "GITHUB_OUTPUT",
  "  -o, --output <OUTPUT>       Report format [default: text] [possible values: text, json]".toList,
  "      --output-key <KEY>      Output name (default: config `output.key`, else \"changed\")".toList,
  described lookup 30 "      --api-url <URL>         GitHub REST API base URL" "GITHUB_API_URL",
  "      --strict                Fail on errors instead of reporting no match".toList,
  "  -h, --help                  Print help".toList,
  "  -V, --version               Print version".toList]

/-- The help of the command that matches files. -/
def matchHelp (lookup : Text → Option Text) : Text := block [
  "Match a local file list or git diff against patterns".toList,
  [],
  "Usage: pathgate match [OPTIONS] [PATH]...".toList,
  [],
  "Arguments:".toList,
  "  [PATH]...  Files to match (default: read lines from stdin)".toList,
  [],
  "Options:".toList,
  described lookup 30 "  -C, --config <CONFIG>       Use specific config file" "PATHGATE_CONFIG",
  "      --patterns <TEXT>       Pattern list, one `- glob` per line (`!` excludes)".toList,
  "  -o, --output <OUTPUT>       Report format [default: text] [possible values: text, json]".toList,
  "      --patterns-file <FILE>  Read the pattern list from a file".toList,
  "      --base <REF>            Match files changed since a git ref instead".toList,
  "      --exit-code             Exit with status 1 when no file matches".toList,
  "  -h, --help                  Print help".toList,
  "  -V, --version               Print version".toList]

/-- The help of the command that gives help. -/
def helpHelp : Text := block [
  "Print this message or the help of the given subcommand(s)".toList,
  [],
  "Usage: pathgate help [COMMAND]...".toList,
  [],
  "Arguments:".toList,
  "  [COMMAND]...  Print help for the subcommand(s)".toList]

/-- The help on a topic. -/
def Topic.text (lookup : Text → Option Text) : Topic → Text
  | .level .top => topHelp lookup
  | .level .detect => detectHelp lookup
  | .level .match_ => matchHelp lookup
  | .help => helpHelp

/-- The name of the program on a level. -/
def Level.programName : Level → Text
  | .top => "pathgate".toList
  | .detect => "pathgate-detect".toList
  | .match_ => "pathgate-match".toList

/-- The line that tells the version. -/
def Level.versionLine (l : Level) : Text := l.programName ++ " 0.1.0\n".toList

/-- The wording of a refusal. -/
def Refusal.message : Refusal → Text
  | .invalidValue => "an option lacks a value or has one that it cannot have".toList
  | .unknownArgument => "unexpected argument".toList
  | .unknownCommand => "unrecognized subcommand".toList
  | .conflict => "an argument cannot be used more than once or with another one".toList
  | .missing => "required arguments were not provided".toList
  | .needlessValue => "unexpected value for an option without one".toList

end ChangeGate.CommandLine
