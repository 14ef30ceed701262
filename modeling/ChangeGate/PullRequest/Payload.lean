import ChangeGate.Json.Ignored
import ChangeGate.Text.Quoted

/-! # Event payloads

A payload is a text of JSON of which one number matters: the member `number` of the member
`pull_request`. **readRecord** reads a record of one member from an object, or by position from a
list; other members are passed over without a look at their values. **readPayload** reads a whole
payload, from left to right, and stops at the first fault. -/

namespace ChangeGate.PullRequest

open Json

/-- Reads a value from the start of a text and gives the rest of the text. -/
abbrev Reader (α : Type) := Text → Except Fault (α × Text)

/-! ## Values of the wrong shape -/

/-- The description of a value that is not what is expected, and the place where it is found out: after
a simple value, before a list or an object. -/
def foundAt (t : Text) : Except Fault (Found × Text) :=
  match t with
  | 'n' :: rest => (expectWord "ull".toList rest).map fun r => (.null, r)
  | 't' :: rest => (expectWord "rue".toList rest).map fun r => (.bool true, r)
  | 'f' :: rest => (expectWord "alse".toList rest).map fun r => (.bool false, r)
  | '-' :: rest => (readNumber true rest).map fun (n, r) => (n.found, r)
  | '"' :: rest => (readString rest).map fun (s, r) => (.string (Text.quoted s), r)
  | '[' :: _ => .ok (.list, t)
  | '\x7b' :: _ => .ok (.object, t)
  | c :: _ =>
    if Text.isDigit c then (readNumber false t).map fun (n, r) => (n.found, r)
    else .error (.past .expectedValue t)
  | [] => .error (.past .expectedValue t)

/-- The fault of a value that starts a text and is not what is expected. -/
def wrongShape (expected t : Text) : Fault :=
  match foundAt t with
  | .error f => f
  | .ok (found, rest) => .before (.misfit (.kind found expected)) rest

/-! ## Optional values, numbers and records -/

/-- An optional value: null stands for its absence. -/
def readOptional {α : Type} (read : Reader α) : Reader (Option α) := fun t =>
  match skipSpace t with
  | 'n' :: rest => (expectWord "ull".toList rest).map fun r => (none, r)
  | rest => (read rest).map fun (v, r) => (some v, r)

/-- The number that a whole number stands for, if it is not negative. -/
def unsigned (rest : Text) : Number → Except Fault (Nat × Text)
  | .integer (.ofNat n) => .ok (n, rest)
  | .integer i => .error (.before (.misfit (.range (.integer i) "u64".toList)) rest)
  | n => .error (.before (.misfit (.kind n.found "u64".toList)) rest)

/-- A whole number of 64 bits without a sign. -/
def readUnsigned : Reader Nat := fun t =>
  match skipSpace t with
  | [] => .error (.past .endInValue [])
  | '-' :: rest =>
    match readNumber true rest with
    | .error f => .error f
    | .ok (n, rest') => unsigned rest' n
  | c :: rest =>
    if Text.isDigit c then
      match readNumber false (c :: rest) with
      | .error f => .error f
      | .ok (n, rest') => unsigned rest' n
    else .error (wrongShape "u64".toList (c :: rest))

/-- A record with one optional member. -/
structure Shape where
  /-- The name of the record. -/
  name : Text
  /-- The key of the member. -/
  field : Text
deriving DecidableEq, Repr

/-- What a value of another shape is told to be. -/
def Shape.expected (s : Shape) : Text := "struct ".toList ++ s.name

/-- What a list without elements is told to be. -/
def Shape.expectedList (s : Shape) : Text := s.expected ++ " with 1 element".toList

/-- The end of the list in which a record was written by position. -/
def closeList (t : Text) : Except Fault Text :=
  match skipSpace t with
  | [] => .error (.past .endInList [])
  | ']' :: rest => .ok rest
  | ',' :: rest =>
    match skipSpace rest with
    | ']' :: rest' => .error (.past .trailingComma (']' :: rest'))
    | rest' => .error (.past .trailingCharacters rest')
  | rest => .error (.past .trailingCharacters rest)

/-- A record from the elements of a list. -/
def readByPosition {α : Type} (shape : Shape) (read : Reader (Option α)) : Reader (Option α) :=
  fun t =>
    match skipSpace t with
    | [] => .error (.past .endInList [])
    | ']' :: rest => .error (.before (.misfit (.length 0 shape.expectedList)) rest)
    | rest =>
      match read rest with
      | .error f => .error f
      | .ok (v, rest') => (closeList rest').map fun r => (v, r)

/-- The place of a fault that is found out behind a key: after the end of the object, if it follows. -/
def afterKey (t : Text) : Text :=
  match skipSpace t with
  | '\x7d' :: rest => rest
  | rest => rest

/-- A record from at most `fuel` members of an object; `found` is the member so far. -/
def readMembers {α : Type} (shape : Shape) (read : Reader (Option α)) :
    Nat → Option (Option α) → Bool → Reader (Option α)
  | 0, _, _, t => .error (.before .endInObject t)
  | fuel + 1, found, first, t =>
    match nextKey first t with
    | .error f => .error f
    | .ok (false, rest) => .ok (found.join, rest)
    | .ok (true, rest) =>
      match readString rest with
      | .error f => .error f
      | .ok (key, rest') =>
        if key = shape.field then
          -- a second one is told before its colon is looked for
          if found.isSome then .error (.before (.misfit (.duplicate shape.field)) (afterKey rest'))
          else
            match expectColon rest' with
            | .error f => .error f
            | .ok rest'' =>
              match read rest'' with
              | .error f => .error f
              | .ok (v, rest''') => readMembers shape read fuel (some v) false rest'''
        else
          match expectColon rest' with
          | .error f => .error f
          | .ok rest'' =>
            match ignoreValue rest'' with
            | .error f => .error f
            | .ok rest''' => readMembers shape read fuel found false rest'''

/-- A record with one optional member. -/
def readRecord {α : Type} (shape : Shape) (read : Reader (Option α)) : Reader (Option α) := fun t =>
  match skipSpace t with
  | [] => .error (.past .endInValue [])
  | '[' :: rest => readByPosition shape read rest
  | '\x7b' :: rest => readMembers shape read (rest.length + 1) none true rest
  | rest => .error (wrongShape shape.expected rest)

/-! ## The payload of an event -/

/-- The pull request of a payload. -/
def requestShape : Shape := ⟨"PullRequestRef".toList, "number".toList⟩

/-- A whole payload. -/
def payloadShape : Shape := ⟨"EventPayload".toList, "pull_request".toList⟩

/-- The pull request of a payload, which is its number. -/
def readRequest : Reader (Option Nat) := readRecord requestShape (readOptional readUnsigned)

/-- The number in a payload, whatever it is; the absent pull request has no number. -/
def readPayload (t : Text) : Except Fault (Option Nat) :=
  match readRecord payloadShape (readOptional readRequest) t with
  | .error f => .error f
  | .ok (found, rest) => (expectEnd rest).map fun _ => found.join

/-- The number of the pull request that a payload describes; zero is the number of none. -/
def payloadNumber (t : Text) : Except Fault (Option Nat) :=
  (readPayload t).map fun n => n.filter (0 < ·)

end ChangeGate.PullRequest
