import ChangeGate.Main
import ChangeGate.Host.Machine
import ChangeGate.Repository.Workspace
import ChangeGate.Proofs.Action.Outputs
import ChangeGate.Proofs.Pattern.Decision
import ChangeGate.Proofs.Program.Credentials
import ChangeGate.Proofs.Program.EmptyVariables
import ChangeGate.Proofs.Program.NamedFiles
import ChangeGate.Proofs.Program.Preconditions
import ChangeGate.Proofs.Program.Strictness
import ChangeGate.Proofs.Repository.Changes
import ChangeGate.Proofs.Url.Path
import ChangeGate.Proofs.PullRequest.Requests
import ChangeGate.Proofs.Glob.Segments
import ChangeGate.Proofs.Glob.Escaping
import ChangeGate.Proofs.Glob.Joining
import ChangeGate.Proofs.PullRequest.Script
import ChangeGate.Proofs.PullRequest.Target
import ChangeGate.Proofs.Config.Fields
import ChangeGate.Proofs.Config.UnknownKeys
import ChangeGate.Proofs.Program.Validation
import ChangeGate.Proofs.Pattern.IncludedSet
import ChangeGate.Proofs.Pattern.Writing
import ChangeGate.Proofs.Pattern.Joining
import ChangeGate.Proofs.Pattern.Quoting
import ChangeGate.Proofs.PullRequest.Trigger
import ChangeGate.Proofs.Json.Number
import ChangeGate.Proofs.Json.Spelling
import ChangeGate.Proofs.Json.Ignored
import ChangeGate.Proofs.PullRequest.Payload
import ChangeGate.Proofs.PullRequest.Refusal
import ChangeGate.Proofs.Report.Json
import ChangeGate.Proofs.Report.Layout
import ChangeGate.Proofs.Repository.Naming
import ChangeGate.Proofs.Repository.Commands
