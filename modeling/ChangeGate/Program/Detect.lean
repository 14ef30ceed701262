import ChangeGate.Action.Output
import ChangeGate.Config.Reader
import ChangeGate.Program.Reporting
import ChangeGate.PullRequest.Listing
import ChangeGate.PullRequest.Runner

/-! # Checking the pull request of a workflow

**detect** reads the configuration, finds the pull request behind the event, lists its files, prints a
report and gives the verdict as the output of the action. Unless it is told to be strict, a failure is
only reported: the output is then `false` and the run ends well, so that a mistake in a filter never
blocks a workflow. Only a listing that overflows is no failure like others: it leaves no run to go on
with. -/

namespace ChangeGate.Program

open CommandLine (Invocation DetectOptions Format)
open PullRequest (Client Runner)

variable {m : Type → Type} [Monad m] [Host m] [Glob.Engine]

/-! ## The configuration -/

/-- The name of the configuration file that is looked for. -/
def configName : Text := "pathgate.toml".toList

/-- The path of the configuration: the given one, or that of a file in a directory. -/
def findConfig (given : Option Text) (directory : Text) : m (Option Text) := do
  match given with
  | some path => pure (some path)
  | none =>
    let candidate := Files.inside directory configName
    if ← Host.isFile candidate then pure (some candidate) else pure none

/-- The warning about an unknown key. -/
def unknownKeyWarning (path key : Text) : Text :=
  "pathgate: warning: ".toList ++ path ++ ": unrecognized field `".toList ++ key ++
    "` (ignored)\n".toList

/-- Warnings about unknown keys, in order. -/
def warnUnknown (path : Text) : List Text → m Unit
  | [] => pure ()
  | key :: rest => do
    Host.complain (unknownKeyWarning path key)
    warnUnknown path rest

/-- The settings that the file at a path gives; unknown keys are warned about. -/
def loadConfig (path : Text) : m (Except Failure Config) := do
  match ← Host.readText path with
  | .error e => pure (.error (.file path e.message))
  | .ok content =>
    match Config.ofText content with
    | .error f => pure (.error (.config f.message))
    | .ok c => do
      warnUnknown path (Config.unknownKeysOf content)
      pure (.ok c)

/-- The settings of an invocation. -/
def configFor (given : Option Text) : m (Except Failure Config) := do
  let directory ← Host.workdir
  match ← findConfig given directory with
  | none => pure (.ok .default)
  | some path => do
    Host.log (.debug .detect ("loading config from ".toList ++ path))
    loadConfig path

/-! ## The verdict -/

/-- The output key: the given one, the one of the configuration if it can be read, or the default. -/
def effectiveKey (given : Option Text) (config : Except Failure Config) : Text :=
  given.getD (match config with
    | .ok c => c.key
    | .error _ => Action.defaultKey)

/-- The address of the server: the given one, the one of the configuration, or the default. -/
def effectiveAddress (given : Option Text) (config : Config) : Text :=
  given.getD (config.server.address.getD PullRequest.defaultAddress)

/-- What has to be known before anything is looked up: patterns that are not blank and an output
file. -/
def prerequisites (o : DetectOptions) (key : Text) : Except Failure (Text × Text) :=
  match Action.keyFault? key with
  | some f => .error (.badKey key f)
  | none =>
    match PullRequest.nonBlank o.patterns with
    | none => .error .noPatterns
    | some patterns =>
      match o.outputFile with
      | none => .error .noOutputFile
      | some file => .ok (patterns, file)

/-- The files of the pull request behind the event; there are none if there is no pull request. -/
def pullRequestFiles (o : DetectOptions) (config : Config) : m (Except Failure (List Text)) := do
  let runner ← Runner.ofHost
  match ← runner.pullRequest with
  | .error f => pure (.error (.pullRequest f))
  | .ok none => do
    Host.log ⟨.info, .detect,
      "no pull request context; treating change list as empty".toList, []⟩
    pure (.ok [])
  | .ok (some p) =>
    match Client.of config.server (effectiveAddress o.address config) with
    | .error f => pure (.error (.pullRequest (.request f)))
    | .ok client => do
      match ← client.files p with
      | .error f => pure (.error (.pullRequest f))
      | .ok files => pure (.ok files)

/-- A report printed, and its verdict given as the output of the action. -/
def conclude (format : Format) (file key : Text) (r : Report) : m (Except Failure Unit) := do
  printReport format r
  match ← Action.appendOutput file key r.changed with
  | .error e => pure (.error (.file file e.message))
  | .ok _ => pure (.ok ())

/-- The check with its settings; the first failure ends it. -/
def check (format : Format) (o : DetectOptions) (config : Config) (key : Text) :
    m (Except Failure Unit) := do
  match prerequisites o key with
  | .error f => pure (.error f)
  | .ok (patterns, file) => do
    match ← compile patterns with
    | .error f => pure (.error f)
    | .ok rules => do
      match ← pullRequestFiles o config with
      | .error f => pure (.error f)
      | .ok files => conclude format file key (Report.of rules files)

/-! ## The command -/

/-- The check of an invocation, with the output key that it uses. -/
def attempt (i : Invocation) (o : DetectOptions) : m (Text × Except Failure Unit) := do
  let config ← configFor i.config
  let key := effectiveKey o.outputKey config
  match config with
  | .error f => pure (key, .error f)
  | .ok c => do
    let result ← check i.format o c key
    pure (key, result)

/-- What is left to do after a failure that does not end the run: it is reported, and the output is
`false` if it can be given. -/
def forgive (o : DetectOptions) (key : Text) (f : Failure) : m Unit := do
  Host.complain ("pathgate: error: ".toList ++ f.full ++ ['\n'])
  match o.outputFile with
  | none => pure ()
  | some file =>
    -- a key that cannot be read back is never written
    if Action.isKey key then
      match ← Action.appendOutput file key false with
      | .ok _ => pure ()
      | .error e =>
        Host.complain
          ("pathgate: error: ".toList ++ (Failure.file file e.message).message ++ ['\n'])
    else pure ()

/-- The command that checks the pull request of a workflow. -/
def detect (i : Invocation) (o : DetectOptions) : m (Except Failure ExitStatus) := do
  match ← attempt i o with
  | (_, .ok _) => pure (.ok .success)
  | (key, .error f) =>
    if f.overflowed then pure (.ok .overflow)
    else if o.strict then pure (.error f)
    else do
      forgive o key f
      pure (.ok .success)

end ChangeGate.Program
