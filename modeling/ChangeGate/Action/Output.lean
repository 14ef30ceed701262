import ChangeGate.Host.Basic
import ChangeGate.Report.Layout

/-! # Outputs of an action

An action gives its output as a line `key=value` at the end of a file. **keyFault?** finds out why a key
cannot be read back from such a line, if so, and **appendOutput** gives the output: the parts of the
line are written one after another, so that a file that takes no more may be left with some of them. -/

namespace ChangeGate.Action

/-! ## Keys -/

/-- Why a text is no output key. -/
inductive KeyFault where
  /-- It holds nothing but white space. -/
  | blank
  /-- It holds the sign that ends a key. -/
  | equalsSign
  /-- It holds the end of a line. -/
  | lineBreak
deriving DecidableEq, Repr

/-- The wording of a fault. -/
def KeyFault.message : KeyFault → Text
  | .blank => "must not be empty".toList
  | .equalsSign => "must not contain '='".toList
  | .lineBreak => "must not contain line breaks".toList

/-- The first fault of a key. -/
def keyFault? (key : Text) : Option KeyFault :=
  if Text.blank key then some .blank
  else if key.contains '=' then some .equalsSign
  else if key.contains '\n' || key.contains '\x0d' then some .lineBreak
  else none

/-- The output key when none is given. -/
def defaultKey : Text := "changed".toList

/-- Whether a text is an output key. -/
def isKey (key : Text) : Bool := (keyFault? key).isNone

/-- A key holds a character that is no white space, and neither an equals sign nor a line end. -/
theorem isKey_iff {key : Text} :
    isKey key = true ↔ Text.blank key = false ∧ '=' ∉ key ∧ '\n' ∉ key ∧ '\x0d' ∉ key := by
  unfold isKey keyFault?
  grind [List.contains_iff_mem]

/-- The default key is one. -/
@[simp] theorem isKey_defaultKey : isKey defaultKey = true := by decide

/-! ## Lines -/

/-- The line that gives a truth value for a key. -/
def outputLine (key : Text) (value : Bool) : Text := key ++ '=' :: Text.ofBool value ++ ['\n']

/-- The parts of that line, as they are written. -/
def outputParts (key : Text) (value : Bool) : List Text.Bytes :=
  [key, ['='], Text.ofBool value, ['\n']].map Text.encode

/-- The parts make up the line. -/
theorem flatten_outputParts (key : Text) (value : Bool) :
    (outputParts key value).flatten = Text.encode (outputLine key value) := by
  simp [outputParts, outputLine]

/-- What the log says of an output. -/
def outputEvent (file key : Text) (value : Bool) : Log.Event :=
  .debug .output ("wrote ".toList ++ key ++ '=' :: Text.ofBool value ++ " to ".toList ++ file)

/-- The line of a key written at the end of an output file. -/
def appendOutput {m : Type → Type} [Monad m] [Host m] (file key : Text) (value : Bool) :
    m (Except Files.Cause Unit) := do
  match ← Host.appendFile file (outputParts key value) with
  | .error e => pure (.error e)
  | .ok _ => do
    Host.log (outputEvent file key value)
    pure (.ok ())

end ChangeGate.Action
