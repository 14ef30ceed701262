import ChangeGate.Config.Basic
import ChangeGate.Host.Basic
import ChangeGate.Json.Value
import ChangeGate.PullRequest.Basic
import ChangeGate.Url.Basic

/-! # The files of a pull request

The server lists the files of a pull request page by page. **Client.files** asks for one page after
another until a page is short or is no list at all, and puts the names together; the first error ends
the listing without any names. Pages are counted by a number of 32 bits: a listing with more pages
**overflows**, which is an outcome of its own. -/

namespace ChangeGate.PullRequest

/-- Asks a server for the files of pull requests. -/
structure Client where
  /-- The address of the server, without slashes at its end. -/
  address : Text
  /-- The number of files on a page. -/
  pageSize : Nat
  /-- The name under which the client asks. -/
  userAgent : Text
deriving DecidableEq, Repr

/-- The address of the server when none is given. -/
def defaultAddress : Text := "https://api.github.com".toList

/-- The number of pages that can be counted. -/
def pageLimit : Nat := 4294967295

/-- The format that is asked for. -/
def listFormat : Text := "application/vnd.github+json".toList

namespace Client

/-- A text without the slashes at its end. -/
def withoutSlashes (t : Text) : Text := (t.reverse.dropWhile (· == '/')).reverse

/-- The client of some settings for the server at an address. The time that an exchange may take is kept by
the host, where an exchange that takes longer breaks down. -/
def of (s : ServerSettings) (address : Text) : Except RequestFault Client :=
  if Http.isHeaderValue s.userAgent then
    .ok ⟨withoutSlashes address, max 1 (min s.pageSize maxPageSize), s.userAgent⟩
  else .error .header

/-- The address of the list of the files of a pull request. -/
def listAddress (c : Client) (p : PullRequest) : Text :=
  c.address ++ "/repos/".toList ++ p.owner ++ '/' :: p.repository ++ "/pulls/".toList ++
    Text.ofNat p.number ++ "/files".toList

/-- The part of a query that asks for a page. -/
def pageQuery (c : Client) (page : Nat) : Text :=
  "per_page=".toList ++ Text.ofNat c.pageSize ++ "&page=".toList ++ Text.ofNat page

/-- The value of the header that holds the credentials. -/
def credentials (p : PullRequest) : Text := "token ".toList ++ p.token

/-- The request for a page. -/
def request (c : Client) (p : PullRequest) (page : Nat) : Except RequestFault Http.Request :=
  match Url.ofText (c.listAddress p) with
  | .error f => .error (.address f)
  | .ok u =>
    -- the address is settled first, then the credentials, and the scheme last
    if !u.hasHost then .error (.scheme u.text)
    else if !Http.isHeaderValue (credentials p) then .error .header
    else
      let full := u.addQuery (c.pageQuery page)
      if full.scheme = "http".toList ∨ full.scheme = "https".toList then
        .ok ⟨full.target, credentials p, listFormat, c.userAgent⟩
      else .error (.scheme full.text)

/-- The elements of a page; nothing when the response is blank or no list. -/
def pageOf (r : Http.Response) : Except Fault (Option (List Json.Value)) :=
  if r.isError then .error (.status r.status r.text)
  else if Text.blank r.text then .ok none
  else
    match Json.readDocument r.text with
    | .error f => .error (.response r.text f)
    | .ok (.list elements) => .ok (some elements)
    | .ok _ => .ok none

/-- The elements of a page from what came of the request for it. -/
def received : Except Http.Breakdown Http.Response → Except Fault (Option (List Json.Value))
  | .error b => .error (.request (.exchange b))
  | .ok r => pageOf r

/-- The name of the file that an element of a page is about. -/
def fileName? (v : Json.Value) : Option Text :=
  ((v.field? "filename".toList).bind Json.Value.text?).filter fun t => !t.isEmpty

/-- Whether a page is the last one, so holds fewer elements than it could. -/
def isLast (c : Client) (elements : List Json.Value) : Bool :=
  elements.isEmpty || elements.length < c.pageSize

variable {m : Type → Type} [Monad m] [Host m]

/-- What the log says of a request. -/
def requestEvent (c : Client) (p : PullRequest) (page : Nat) : Log.Event :=
  .debug .client ("GET ".toList ++ c.listAddress p ++ " page ".toList ++ Text.ofNat page)

/-- What the log says of a finished list. -/
def listEvent (p : PullRequest) (files : List Text) : Log.Event :=
  .debug .client ("fetched ".toList ++ Text.ofNat files.length ++ " changed files for ".toList ++
    p.owner ++ '/' :: p.repository ++ '#' :: Text.ofNat p.number)

/-- The elements of a page of a pull request. -/
def fetchPage (c : Client) (p : PullRequest) (page : Nat) :
    m (Except Fault (Option (List Json.Value))) := do
  Host.log (c.requestEvent p page)
  match c.request p page with
  | .error f => pure (.error (.request f))
  | .ok r => do pure (received (← Host.send r))

/-- The names on the pages from a page on, of which `fuel` ones have a number. After the last of them the
counter overflows: where arithmetic is checked, the program is broken off with the last number that the
counter takes, and where it is not, it counts from zero again and goes on for ever. -/
def filesFrom (c : Client) (p : PullRequest) : Nat → Nat → m (Except Fault (List Text))
  | 0, _ => pure (.error (.request .overflow))
  | fuel + 1, page => do
    match ← c.fetchPage p page with
    | .error f => pure (.error f)
    | .ok none => pure (.ok [])
    | .ok (some elements) =>
      let names := elements.filterMap fileName?
      if c.isLast elements then pure (.ok names)
      else do
        match ← filesFrom c p fuel (page + 1) with
        | .error f => pure (.error f)
        | .ok more => pure (.ok (names ++ more))

/-- The files of a pull request, in the order in which the server lists them. -/
def files (c : Client) (p : PullRequest) : m (Except Fault (List Text)) := do
  match ← c.filesFrom p pageLimit 1 with
  | .error f => pure (.error f)
  | .ok names => do
    Host.log (listEvent p names)
    pure (.ok names)

end Client

end ChangeGate.PullRequest
