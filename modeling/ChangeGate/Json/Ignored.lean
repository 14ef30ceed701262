import ChangeGate.Json.Value

/-! # Values that do not matter

**ignoreValue** finds the end of a value without reading it. The lists and objects that are open are
kept in a list, so nesting has no limit; numbers and strings are only checked for their form. -/

namespace ChangeGate.Json

/-- What is open around the place of reading. -/
inductive Frame where
  | list
  | object
deriving DecidableEq, Repr

/-- The text ends inside of a frame. -/
def Frame.endReason : Frame → Reason
  | .list => .endInList
  | .object => .endInObject

/-- Neither a comma nor the end of a frame follows. -/
def Frame.closeReason : Frame → Reason
  | .list => .expectedListEnd
  | .object => .expectedObjectEnd

/-- The character that ends a frame. -/
def Frame.close : Frame → Char
  | .list => ']'
  | .object => '\x7d'

/-- The rest of a text after a key that does not matter and its colon. -/
def ignoreKey (t : Text) : Except Fault Text :=
  match skipSpace t with
  | [] => .error (.past .endInObject [])
  | '"' :: rest =>
    match ignoreString rest with
    | .error f => .error f
    | .ok rest' => expectColon rest'
  | rest => .error (.past .keyNotString rest)

/-- The rest of a text after a value that is no list and no object, or the frame that is opened. -/
def ignoreStart (t : Text) : Except Fault (Option Frame × Text) :=
  match skipSpace t with
  | [] => .error (.past .endInValue [])
  | 'n' :: rest => (expectWord "ull".toList rest).map (none, ·)
  | 't' :: rest => (expectWord "rue".toList rest).map (none, ·)
  | 'f' :: rest => (expectWord "alse".toList rest).map (none, ·)
  | '-' :: rest => (ignoreNumber rest).map (none, ·)
  | '"' :: rest => (ignoreString rest).map (none, ·)
  | '[' :: rest => .ok (some .list, rest)
  | '\x7b' :: rest => .ok (some .object, rest)
  | c :: rest =>
    if Text.isDigit c then (ignoreNumber (c :: rest)).map (none, ·)
    else .error (.past .expectedValue (c :: rest))

/-- The rest of a text after the open frames are closed. Between two values of a frame a comma is
needed, which `fresh` says is not yet so; `value` says that a value starts here. -/
def ignoreWithin : Nat → Bool → Bool → List Frame → Text → Except Fault Text
  | 0, _, _, _, t => .error (.before .endInValue t)
  | fuel + 1, true, _, frames, t =>
    match ignoreStart t with
    | .error f => .error f
    | .ok (none, rest) => ignoreWithin fuel false false frames rest
    | .ok (some frame, rest) => ignoreWithin fuel false true (frame :: frames) rest
  | _ + 1, false, _, [], t => .ok t
  | fuel + 1, false, fresh, frame :: outer, t =>
    let next (rest : Text) : Except Fault Text :=
      match frame with
      | .list => ignoreWithin fuel true false (frame :: outer) rest
      | .object =>
        match ignoreKey rest with
        | .error f => .error f
        | .ok rest' => ignoreWithin fuel true false (frame :: outer) rest'
    match skipSpace t with
    | [] => .error (.past frame.endReason [])
    | c :: rest =>
      if c = frame.close then ignoreWithin fuel false false outer rest
      else if fresh then next (c :: rest)
      else if c = ',' then next rest
      else .error (.past frame.closeReason (c :: rest))

/-- The rest of a text after a value that does not matter. -/
def ignoreValue (t : Text) : Except Fault Text :=
  ignoreWithin (2 * t.length + 2) true false [] t

end ChangeGate.Json
