import ChangeGate.Host.Basic
import ChangeGate.PullRequest.Basic
import ChangeGate.PullRequest.Payload
import ChangeGate.Text.Uppercase

/-! # The runner of a workflow

A workflow runs with environment variables that tell about the event that triggered it. **Runner** is
what they say, blank variables being as good as unset, and **Runner.pullRequest** is the pull request
behind the event: the number is taken from the payload of the event, owner and repository are the
first two parts of a name. -/

namespace ChangeGate.PullRequest

/-- What the environment tells about the event that triggered a workflow. -/
structure Runner where
  /-- The name of the event. -/
  event : Option Text
  /-- The path of the payload. -/
  payload : Option Text
  /-- The name of the repository behind the name of its owner. -/
  repository : Option Text
  /-- The token that the workflow was given. -/
  token : Option Text
deriving DecidableEq, Repr

/-- The name of the variable that holds an input of an action. -/
def inputVariable (name : Text) : Text :=
  "INPUT_".toList ++ Text.toUpper (name.map fun c => if c = ' ' then '_' else c)

/-- The variables that may hold the token; the first one that is not blank counts. -/
def tokenVariables : List Text :=
  ["GITHUB_TOKEN".toList, "GH_TOKEN".toList, inputVariable "github_token".toList]

/-- The events that are about a pull request. -/
def pullRequestEvents : List Text := ["pull_request".toList, "pull_request_target".toList]

/-- A value that is not blank. -/
def nonBlank (v : Option Text) : Option Text := v.filter fun t => !Text.blank t

/-- Why there is no pull request. -/
inductive Absence where
  /-- The event is about something else. -/
  | otherEvent (name : Option Text)
  /-- There is no payload. -/
  | noPayload
  /-- The payload has no number above zero. -/
  | noNumber
  /-- Owner, repository or token are missing. -/
  | incomplete
deriving DecidableEq, Repr

/-- The wording of an absence. -/
def Absence.message : Absence → Text
  | .otherEvent name =>
    "event ".toList ++ Text.optional (name.map Text.quoted) ++ " is not a pull request event".toList
  | .noPayload => "event payload not found".toList
  | .noNumber => "event payload has no pull request number".toList
  | .incomplete => "repository or token missing".toList

namespace Runner

/-- What the variables of an environment tell. -/
def ofVariables (lookup : Text → Option Text) : Runner where
  event := nonBlank (lookup "GITHUB_EVENT_NAME".toList)
  payload := nonBlank (lookup "GITHUB_EVENT_PATH".toList)
  repository := nonBlank (lookup "GITHUB_REPOSITORY".toList)
  token := tokenVariables.findSome? fun name => nonBlank (lookup name)

/-- A runner in diagnostics, which only show that there is a token. -/
def describe (r : Runner) : Text :=
  "ActionEnv \x7b event_name: ".toList ++ Text.optional (r.event.map Text.quoted) ++
    ", event_path: ".toList ++ Text.optional (r.payload.map Text.quotedPath) ++
    ", repository: ".toList ++ Text.optional (r.repository.map Text.quoted) ++
    ", token: ".toList ++ Text.optional (r.token.map fun _ => Text.quoted "***".toList) ++
    " \x7d".toList

/-- Whether the event is about a pull request. -/
def hasPullRequestEvent (r : Runner) : Bool := r.event.any pullRequestEvents.contains

/-- The owner and the repository of a name. -/
def ownerAndRepository (name : Text) : Text × Text :=
  ((Text.pieces '/' name)[0]?.getD [], (Text.pieces '/' name)[1]?.getD [])

/-- The pull request of a number, if owner, repository and token are known. -/
def identified? (r : Runner) (number : Nat) : Option PullRequest :=
  let (owner, repository) := ownerAndRepository (r.repository.getD [])
  match r.token with
  | none => none
  | some token =>
    if owner = [] ∨ repository = [] then none else some ⟨owner, repository, number, token⟩

/-- The pull request that a payload and the runner describe. -/
def ofPayload (r : Runner) (path content : Text) : Except Fault (Except Absence PullRequest) :=
  match payloadNumber content with
  | .error f => .error (.payloadMalformed path content f)
  | .ok none => .ok (.error .noNumber)
  | .ok (some number) => .ok ((r.identified? number).elim (.error .incomplete) .ok)

variable {m : Type → Type} [Monad m] [Host m]

/-- What the environment of a host tells. -/
def ofHost : m Runner := do
  let event ← Host.lookup "GITHUB_EVENT_NAME".toList
  let payload ← Host.lookup "GITHUB_EVENT_PATH".toList
  let repository ← Host.lookup "GITHUB_REPOSITORY".toList
  let tokens ← tokenVariables.mapM Host.lookup
  pure ⟨nonBlank event, nonBlank payload, nonBlank repository, tokens.findSome? nonBlank⟩

/-- The pull request behind the event of a runner, or the reason why there is none. -/
def resolve (r : Runner) : m (Except Fault (Except Absence PullRequest)) := do
  if !r.hasPullRequestEvent then pure (.ok (.error (.otherEvent r.event)))
  else
    match r.payload with
    | none => pure (.ok (.error .noPayload))
    | some path =>
      if ← Host.isOccupied path then
        match ← Host.readText path with
        | .error e => pure (.error (.payloadUnreadable path e))
        | .ok content => pure (r.ofPayload path content)
      else pure (.ok (.error .noPayload))

/-- The pull request behind the event of a runner; the log says why there is none. -/
def pullRequest (r : Runner) : m (Except Fault (Option PullRequest)) := do
  match ← r.resolve with
  | .error f => pure (.error f)
  | .ok (.ok p) => pure (.ok (some p))
  | .ok (.error a) => do
    Host.log (.debug .github a.message)
    pure (.ok none)

end Runner

end ChangeGate.PullRequest
