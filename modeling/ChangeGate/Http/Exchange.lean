import ChangeGate.Text.Utf8

/-! # Requests and responses

A **request** is what a server sees of a question, a **response** is its answer, and a **server** is a
rule that answers each request in the light of those before it. An exchange may also **break down**
before the whole answer is there, as when there is no connection or no time is left. The value of a
header may hold any character but control characters, tabs excepted. -/

namespace ChangeGate.Http

/-- A request to read something, with the headers that matter. -/
structure Request where
  /-- What is asked for: a path and perhaps a query. -/
  target : Text
  /-- The credentials. -/
  authorization : Text
  /-- The format that is asked for. -/
  accept : Text
  /-- The name of the client. -/
  userAgent : Text
deriving DecidableEq, Repr

/-- The line that a request starts with, without the version. -/
def Request.line (r : Request) : Text := "GET ".toList ++ r.target

/-- The answer to a request. -/
structure Response where
  /-- The status code. -/
  status : Nat
  /-- The body. -/
  body : Text.Bytes
deriving DecidableEq, Repr

/-- Whether a response ends with its headers: it has no content, or what is asked for has not
changed. -/
def Response.isBare (r : Response) : Bool := r.status == 204 || r.status == 304

/-- The text of a body; what is malformed in it is replaced. -/
def Response.text (r : Response) : Text := if r.isBare then [] else Text.decodeLossy r.body

/-- Whether a response tells of an error on the part of the client or of the server. -/
def Response.isError (r : Response) : Bool := 400 ≤ r.status && r.status ≤ 599

/-- An empty list, as a server answers when it has nothing to list. -/
def Response.emptyList : Response := ⟨200, Text.encode "[]".toList⟩

/-- Why an exchange breaks down before the whole response is there. -/
structure Breakdown where
  /-- What went wrong. -/
  wording : Text
  /-- The causes behind it, the nearest one first. -/
  causes : List Text
deriving DecidableEq, Repr

/-- A rule that answers a request, given the requests before it, or lets the exchange break down. -/
abbrev Server := List Request → Request → Except Breakdown Response

/-- The server that gives out responses in turn, whatever it is asked, and then empty lists. -/
def Server.ofScript (responses : List Response) : Server := fun past _ =>
  .ok ((responses[past.length]?).getD .emptyList)

/-- Whether a character may stand in the value of a header. -/
def isHeaderChar (c : Char) : Bool := (0x20 ≤ c.toNat && c.toNat != 0x7F) || c == '\t'

/-- Whether a text may be the value of a header. -/
def isHeaderValue (t : Text) : Bool := t.all isHeaderChar

@[simp] theorem isHeaderValue_nil : isHeaderValue [] = true := rfl

@[simp] theorem isHeaderValue_append (s t : Text) :
    isHeaderValue (s ++ t) = (isHeaderValue s && isHeaderValue t) := by simp [isHeaderValue]

end ChangeGate.Http
