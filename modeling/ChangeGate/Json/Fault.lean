import ChangeGate.Shape.Misfit
import ChangeGate.Text.Utf8

/-! # Faults in a text of JSON

A **fault** is a reason and the place where reading stopped, counted in bytes from the end of the
text. Its **location** is the line and the column of that place, and its **category** tells a text
that is malformed from one that ends too early and from one that is well formed but of the wrong
shape. -/

namespace ChangeGate.Json

/-- Why a text of JSON is refused. -/
inductive Reason where
  | endInList
  | endInObject
  | endInString
  | endInValue
  | expectedColon
  | expectedListEnd
  | expectedObjectEnd
  | expectedWord
  | expectedValue
  | invalidEscape
  | invalidNumber
  | numberTooLarge
  | loneSurrogate
  | endOfHexEscape
  | controlCharacter
  | keyNotString
  | trailingComma
  | trailingCharacters
  | tooDeep
  /-- A value of the wrong shape. -/
  | misfit (m : Misfit)
deriving DecidableEq, Repr

/-- The wording of a reason. -/
def Reason.message : Reason → Text
  | .endInList => "EOF while parsing a list".toList
  | .endInObject => "EOF while parsing an object".toList
  | .endInString => "EOF while parsing a string".toList
  | .endInValue => "EOF while parsing a value".toList
  | .expectedColon => "expected `:`".toList
  | .expectedListEnd => "expected `,` or `]`".toList
  | .expectedObjectEnd => "expected `,` or `\x7d`".toList
  | .expectedWord => "expected ident".toList
  | .expectedValue => "expected value".toList
  | .invalidEscape => "invalid escape".toList
  | .invalidNumber => "invalid number".toList
  | .numberTooLarge => "number out of range".toList
  | .loneSurrogate => "lone leading surrogate in hex escape".toList
  | .endOfHexEscape => "unexpected end of hex escape".toList
  | .controlCharacter => "control character (\\u0000-\\u001F) found while parsing a string".toList
  | .keyNotString => "key must be a string".toList
  | .trailingComma => "trailing comma".toList
  | .trailingCharacters => "trailing characters".toList
  | .tooDeep => "recursion limit exceeded".toList
  | .misfit m => m.message

/-- The kinds of faults. -/
inductive Category where
  /-- The text is not well formed. -/
  | malformed
  /-- The text ends too early. -/
  | truncated
  /-- The text has the wrong shape. -/
  | wrongShape
deriving DecidableEq, Repr

/-- The kind of a reason. -/
def Reason.category : Reason → Category
  | .endInList => .truncated
  | .endInObject => .truncated
  | .endInString => .truncated
  | .endInValue => .truncated
  | .misfit _ => .wrongShape
  | _ => .malformed

/-- A reason and the number of bytes that were left when reading stopped. -/
structure Fault where
  reason : Reason
  left : Nat
deriving DecidableEq, Repr

namespace Fault

/-- A fault before what is left of the text. -/
def before (reason : Reason) (rest : Text) : Fault := ⟨reason, Text.byteLength rest⟩

/-- A fault after the next byte, or at the end of the text. -/
def past (reason : Reason) (rest : Text) : Fault := ⟨reason, Text.byteLength rest - 1⟩

/-- The line and the column after some bytes, lines counted from one. -/
def location : Text.Bytes → Nat × Nat :=
  List.foldl (fun (line, column) b => if b = 10 then (line + 1, 0) else (line, column + 1)) (1, 0)

/-- The reason and the place of a fault in a text. -/
def message (f : Fault) (t : Text) : Text :=
  let bytes := Text.encode t
  let at_ := location (bytes.take (bytes.length - f.left))
  f.reason.message ++ " at line ".toList ++ Text.ofNat at_.1 ++ " column ".toList ++ Text.ofNat at_.2

end Fault

end ChangeGate.Json
