import ChangeGate.Json.Fault
import ChangeGate.Files.Path
import ChangeGate.Http.Exchange
import ChangeGate.Text.Quoted
import ChangeGate.Url.HostName

/-! # Pull requests

A pull request belongs to a repository of an owner and has a number; a token is needed to ask for its
files. Finding a pull request or listing its files may **fail** for reasons of which each says what
went wrong, followed by the causes behind it. -/

namespace ChangeGate

/-- A pull request and the credentials to ask about it. -/
structure PullRequest where
  owner : Text
  repository : Text
  number : Nat
  token : Text
deriving DecidableEq, Repr

namespace PullRequest

/-- A pull request in diagnostics, which do not show the token. -/
def describe (p : PullRequest) : Text :=
  "PullRequestContext \x7b owner: ".toList ++ Text.quoted p.owner ++ ", repo: ".toList ++
    Text.quoted p.repository ++ ", number: ".toList ++ Text.ofNat p.number ++ ", .. \x7d".toList

/-- Why a request comes to nothing. -/
inductive RequestFault where
  /-- The address is none. -/
  | address (cause : Url.Fault)
  /-- The address is none of the web. -/
  | scheme (address : Text)
  /-- A header cannot have the value. -/
  | header
  /-- The request was sent, and the exchange broke down. -/
  | exchange (cause : Http.Breakdown)
  /-- There is no number for the page that would be asked for next. No request is at fault then, and a run
  does not survive it. -/
  | overflow
deriving DecidableEq, Repr

/-- The wording of a fault of a request. -/
def RequestFault.message : RequestFault → Text
  | .address _ => "builder error".toList
  | .scheme given => "builder error for url (".toList ++ given ++ [')']
  | .header => "builder error".toList
  | .exchange cause => cause.wording
  | .overflow => "attempt to add with overflow".toList

/-- The causes behind a fault of a request, the nearest one first. -/
def RequestFault.causes : RequestFault → List Text
  | .address cause => [cause.message]
  | .scheme _ => ["URL scheme is not allowed".toList]
  | .header => ["failed to parse header value".toList]
  | .exchange cause => cause.causes
  | .overflow => []

/-- Why a pull request or its files are not found. -/
inductive Fault where
  /-- The server answered with an error. -/
  | status (code : Nat) (body : Text)
  /-- A request comes to nothing. -/
  | request (cause : RequestFault)
  /-- A response is not what it should be. -/
  | response (body : Text) (cause : Json.Fault)
  /-- The payload of the event cannot be read. -/
  | payloadUnreadable (path : Text) (cause : Files.Cause)
  /-- The payload of the event is not what it should be. -/
  | payloadMalformed (path content : Text) (cause : Json.Fault)
deriving DecidableEq, Repr

/-- The wording of a fault. -/
def Fault.message : Fault → Text
  | .status code body => "HTTP ".toList ++ Text.ofNat code ++ ": ".toList ++ body
  | .request cause => "request failed: ".toList ++ cause.message
  | .response body cause => "failed to parse response: ".toList ++ cause.message body
  | .payloadUnreadable path cause =>
    "failed to read event payload ".toList ++ path ++ ": ".toList ++ cause.message
  | .payloadMalformed path content cause =>
    "failed to parse event payload ".toList ++ path ++ ": ".toList ++ cause.message content

/-- The causes behind a fault, the nearest one first. -/
def Fault.causes : Fault → List Text
  | .status _ _ => []
  | .request cause => cause.message :: cause.causes
  | .response body cause => [cause.message body]
  | .payloadUnreadable _ cause => [cause.message]
  | .payloadMalformed _ content cause => [cause.message content]

end PullRequest

end ChangeGate
