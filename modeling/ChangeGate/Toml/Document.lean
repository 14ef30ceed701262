import ChangeGate.Toml.Scalar
import ChangeGate.Toml.StringLiteral

/-! # Documents of TOML

A document is a list of lines: headers, members, comments and blank lines. **readDocument?** reads the
lines in order and builds the table of the whole document, or nothing if the text is not well formed
or says something twice. -/

namespace ChangeGate.Toml

/-! ## Keys -/

/-- Characters of keys without marks. -/
def isKeyChar (c : Char) : Bool := Text.isAsciiAlphanumeric c || c == '-' || c == '_'

/-- One part of a key, and the rest. -/
def simpleKey? (t : Text) : Option (Text × Text) :=
  match t with
  | '"' :: rest => lineString? '"' (rest.length + 1) rest
  | '\'' :: rest => lineString? '\'' (rest.length + 1) rest
  | _ =>
    if (t.takeWhile isKeyChar).isEmpty then none
    else some (t.takeWhile isKeyChar, t.dropWhile isKeyChar)

/-- The parts of a key between its points, and the rest. -/
def keyParts? : Nat → Text → Option (List Text × Text)
  | 0, _ => none
  | fuel + 1, t =>
    (simpleKey? (skipBlanks t)).bind fun (part, rest) =>
      match skipBlanks rest with
      | '.' :: rest' => (keyParts? fuel rest').map fun (ps, r) => (part :: ps, r)
      | rest' => some ([part], rest')

/-- How many values or parts of a key may lie inside of each other, and one more. -/
def depthLimit : Nat := 80

/-- A key: the parts before the last one, the last one, and the rest of the text. -/
def key? (t : Text) : Option (List Text × Text × Text) :=
  (keyParts? (t.length + 1) t).bind fun (ps, rest) =>
    match ps.getLast? with
    | none => none
    | some last => if depthLimit ≤ ps.length then none else some (ps.dropLast, last, rest)

/-! ## Values -/

/-- What follows a comment. -/
def comment? (t : Text) : Option Text :=
  match t with
  | '#' :: rest =>
    let tail := rest.dropWhile fun c => !isForbidden c
    if tail.isEmpty || (newline? tail).isSome then some tail else none
  | _ => some t

/-- What follows the blanks, line ends and comments that start a text. -/
def skipLayout? : Nat → Text → Option Text
  | 0, _ => none
  | fuel + 1, t =>
    match skipLines t with
    | '#' :: rest => (comment? ('#' :: rest)).bind (skipLayout? fuel)
    | rest => some rest

/-- A text from its next part on, within a list. -/
def skipLayout (t : Text) : Option Text := skipLayout? (t.length + 1) t

/-- What follows the equals sign of a member, blanks dropped. -/
def expectEquals? (t : Text) : Option Text :=
  match skipBlanks t with
  | '=' :: rest => some (skipBlanks rest)
  | _ => none

/-- A number, a date or a word, and the rest. -/
def readScalar? (t : Text) : Option (Value × Text) :=
  (scalar? (scalarRun t).1).map fun v => (v, (scalarRun t).2)

mutual

/-- The value that a text starts with, read in at most `fuel` steps, and the rest; `depth` more lists
and tables may be open. -/
def readValue? : Nat → Nat → Text → Option (Value × Text)
  | 0, _, _ => none
  | fuel + 1, depth, t =>
    match t with
    | '"' :: rest => (string? '"' rest).map fun (s, r) => (.string s, r)
    | '\'' :: rest => (string? '\'' rest).map fun (s, r) => (.string s, r)
    | '[' :: rest =>
      if depth = 0 then none
      else (readElements? fuel (depth - 1) rest).map fun (vs, r) => (.list false vs, r)
    | '\x7b' :: rest =>
      if depth = 0 then none
      else
        match skipBlanks rest with
        | '\x7d' :: r => some (.table .braces [], r)
        | rest' => (readPairs? fuel (depth - 1) [] rest').map fun (ms, r) => (.table .braces ms, r)
    | _ => readScalar? t

/-- The elements of a list up to its end; a comma may follow the last one. -/
def readElements? : Nat → Nat → Text → Option (List Value × Text)
  | 0, _, _ => none
  | fuel + 1, depth, t =>
    match skipLayout t with
    | none => none
    | some (']' :: rest) => some ([], rest)
    | some rest =>
      match readValue? fuel depth rest with
      | none => none
      | some (v, rest') =>
        match skipLayout rest' with
        | some (']' :: r) => some ([v], r)
        | some (',' :: r) => (readElements? fuel depth r).map fun (vs, r') => (v :: vs, r')
        | _ => none

/-- The members of a table between braces up to its end, after those read so far. -/
def readPairs? : Nat → Nat → Members → Text → Option (Members × Text)
  | 0, _, _, _ => none
  | fuel + 1, depth, ms, t =>
    match key? t with
    | none => none
    | some (path, key, rest) =>
      match expectEquals? rest with
      | none => none
      | some rest' =>
        match readValue? fuel depth rest' with
        | none => none
        | some (v, rest'') =>
          match Members.assign key v path ms with
          | none => none
          | some ms' =>
            match skipBlanks rest'' with
            | '\x7d' :: r => some (ms', r)
            | ',' :: r => readPairs? fuel depth ms' r
            | _ => none

end

/-! ## Lines -/

/-- A document while it is read. -/
structure Draft where
  /-- The members so far. -/
  members : Members
  /-- The path of the table that the next members belong to. -/
  path : List Text

/-- What follows the end of a line, which may hold a comment. -/
def lineEnd? (t : Text) : Option Text :=
  match comment? (skipBlanks t) with
  | some [] => some []
  | some rest => newline? rest
  | none => none

/-- A draft after the header of a table; `t` follows the first bracket. -/
def tableHeader? (d : Draft) (t : Text) : Option (Draft × Text) :=
  match key? t with
  | some (path, key, ']' :: rest) =>
    (Members.within (Members.defineTable key) path d.members).map fun ms =>
      (⟨ms, path ++ [key]⟩, rest)
  | _ => none

/-- A draft after the header of an element of a list; `t` follows the second bracket. -/
def elementHeader? (d : Draft) (t : Text) : Option (Draft × Text) :=
  match key? t with
  | some (path, key, ']' :: ']' :: rest) =>
    (Members.within (Members.appendTable key) path d.members).map fun ms =>
      (⟨ms, path ++ [key]⟩, rest)
  | _ => none

/-- A draft after a member. -/
def memberLine? (d : Draft) (t : Text) : Option (Draft × Text) :=
  match key? t with
  | none => none
  | some (path, key, rest) =>
    match expectEquals? rest with
    | none => none
    | some rest' =>
      match readValue? (2 * rest'.length + 2) (depthLimit - 1) rest' with
      | none => none
      | some (v, rest'') =>
        (Members.within (Members.assign key v path) d.path d.members).map fun ms =>
          (⟨ms, d.path⟩, rest'')

/-- A draft after the part of a line before its end. -/
def line? (d : Draft) (t : Text) : Option (Draft × Text) :=
  match skipBlanks t with
  | [] => some (d, [])
  | '[' :: '[' :: rest => elementHeader? d rest
  | '[' :: rest => tableHeader? d rest
  | c :: rest =>
    if c = '#' || c = '\n' || c = '\x0d' then some (d, c :: rest) else memberLine? d (c :: rest)

/-- The members of a document, in at most `fuel` lines, after those of a draft. -/
def readLines? : Nat → Draft → Text → Option Members
  | 0, _, _ => none
  | fuel + 1, d, t =>
    match line? d t with
    | none => none
    | some (d', rest) =>
      match lineEnd? rest with
      | none => none
      | some [] => some d'.members
      | some rest' => readLines? fuel d' rest'

/-- A text without the mark of its encoding. -/
def withoutMark : Text → Text
  | '\uFEFF' :: t => t
  | t => t

/-- The table of a whole document, if the text is well formed. -/
def readDocument? (t : Text) : Option Members :=
  readLines? ((withoutMark t).length + 1) ⟨[], []⟩ (withoutMark t)

end ChangeGate.Toml
