import ChangeGate.CommandLine.Help
import ChangeGate.CommandLine.Reader
import ChangeGate.Program.Detect
import ChangeGate.Program.Match

/-! # Runs

**run** is a whole run of the program: the command line is read, its command is carried out, and a
failure that ends the run is reported. The result is the number of the exit status. -/

namespace ChangeGate.Program

open CommandLine (Invocation Stop)

variable {m : Type → Type} [Monad m] [Host m] [Glob.Engine]

/-- The values of the variables that stand in for options. -/
def optionVariables : List Text → m (List (Text × Option Text))
  | [] => pure []
  | name :: rest => do
    let v ← Host.lookup name
    let more ← optionVariables rest
    pure ((name, v) :: more)

/-- The value of a variable among some that were looked up. -/
def valueIn (values : List (Text × Option Text)) (name : Text) : Option Text :=
  (values.lookup name).join

/-- The command of an invocation carried out; without a command, help is given. -/
def carryOut (lookup : Text → Option Text) (i : Invocation) : m (Except Failure ExitStatus) :=
  match i.command with
  | none => do
    Host.print (CommandLine.topHelp lookup ++ ['\n'])
    pure (.ok .success)
  | some (.detect o) => detect i o
  | some (.match_ o) => matchFiles i.format o

/-- The answer to a command line that asks for no run. -/
def answer (lookup : Text → Option Text) : Stop → m ExitStatus
  | .refused why => do
    Host.complain ("error: ".toList ++ why.message ++ ['\n'])
    pure .misuse
  | .help topic => do
    Host.print (topic.text lookup)
    pure .success
  | .version level => do
    Host.print level.versionLine
    pure .success

/-- The end of a run: a failure is reported. -/
def conclusion : Except Failure ExitStatus → m ExitStatus
  | .ok status => pure status
  | .error f => do
    Host.complain ("pathgate: ".toList ++ f.full ++ ['\n'])
    pure f.status

/-- A whole run. -/
def run (arguments : List Text) : m ExitStatus := do
  let values ← optionVariables CommandLine.Flag.standIns
  let lookup := valueIn values
  match CommandLine.read lookup arguments with
  | .error stop => answer lookup stop
  | .ok i => do
    let result ← carryOut lookup i
    conclusion result

end ChangeGate.Program
