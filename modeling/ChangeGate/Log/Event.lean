import ChangeGate.Text.Quoted

/-! # Log events

An **event** is a message of some importance from a part of the program, with fields that have a name
and a value. **Event.line** is how an event is shown. -/

namespace ChangeGate.Log

/-- How important an event is. -/
inductive Level where
  | error
  | warn
  | info
  | debug
  | trace
deriving DecidableEq, Repr

/-- How detailed the log is that shows events of a level. -/
def Level.detail : Level → Nat
  | .error => 1
  | .warn => 2
  | .info => 3
  | .debug => 4
  | .trace => 5

/-- The name of a level in five characters. -/
def Level.label : Level → Text
  | .error => "ERROR".toList
  | .warn => " WARN".toList
  | .info => " INFO".toList
  | .debug => "DEBUG".toList
  | .trace => "TRACE".toList

/-- The parts of the program that log. -/
inductive Part where
  /-- The compilation of patterns. -/
  | pattern
  /-- The output file of an action. -/
  | output
  /-- The pull request of a workflow. -/
  | github
  /-- The exchange with the server. -/
  | client
  /-- The repository. -/
  | git
  /-- The detection of a pull request. -/
  | detect
deriving DecidableEq, Repr

/-- The name of a part, from the whole to the part. -/
def Part.name : Part → Text
  | .pattern => "pathgate::pattern".toList
  | .output => "pathgate::output".toList
  | .github => "pathgate::github".toList
  | .client => "pathgate::github::client".toList
  | .git => "pathgate::git".toList
  | .detect => "pathgate::cmd_detect".toList

/-- An event. -/
structure Event where
  level : Level
  part : Part
  message : Text
  /-- Names and shown values. -/
  fields : List (Text × Text)
deriving DecidableEq, Repr

/-- A character of a message; those that control a terminal are escaped. -/
def messageChar (c : Char) : Text :=
  if c = '\x1b' then "\\x1b".toList
  else if c = '\x07' then "\\x07".toList
  else if c = '\x08' then "\\x08".toList
  else if c = '\x0c' then "\\x0c".toList
  else if c = '\x7f' then "\\x7f".toList
  else if 0x80 ≤ c.toNat && c.toNat ≤ 0x9F then Text.numberEscape c
  else [c]

/-- The line of an event: its level, its message and its fields. -/
def Event.line (e : Event) : Text :=
  e.level.label ++ ' ' :: e.message.flatMap messageChar ++
    e.fields.flatMap (fun (name, value) => ' ' :: name ++ '=' :: value) ++ ['\n']

/-- A message for those who look for faults. -/
def Event.debug (part : Part) (message : Text) : Event := ⟨.debug, part, message, []⟩

end ChangeGate.Log
