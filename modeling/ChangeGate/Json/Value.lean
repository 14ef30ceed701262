import ChangeGate.Json.Number
import ChangeGate.Json.StringLiteral

/-! # Values of JSON

**readDocument** reads a whole text as one value. Objects keep their members in order, repeated keys
included; the last member of a key counts. Lists and objects may be nested up to a limit. -/

namespace ChangeGate.Json

/-- A value. -/
inductive Value where
  | null
  | bool (b : Bool)
  | number (n : Number)
  | string (t : Text)
  | list (elements : List Value)
  | object (members : List (Text × Value))

/-! ## Equality -/

mutual

/-- Whether two values are the same. -/
def Value.same : Value → Value → Bool
  | .null, .null => true
  | .bool a, .bool b => a == b
  | .number m, .number n => m == n
  | .string s, .string t => s == t
  | .list vs, .list ws => sameElements vs ws
  | .object ms, .object ns => sameMembers ms ns
  | _, _ => false

/-- Whether two lists have the same elements. -/
def sameElements : List Value → List Value → Bool
  | [], [] => true
  | v :: vs, w :: ws => v.same w && sameElements vs ws
  | _, _ => false

/-- Whether two objects have the same members, in the same order. -/
def sameMembers : List (Text × Value) → List (Text × Value) → Bool
  | [], [] => true
  | (k, v) :: ms, (l, w) :: ns => k == l && v.same w && sameMembers ms ns
  | _, _ => false

end

mutual

/-- Values are the same exactly if they are equal. -/
theorem Value.same_iff : ∀ v w : Value, v.same w = true ↔ v = w
  | .null, w => by cases w <;> simp [Value.same]
  | .bool _, w => by cases w <;> simp [Value.same]
  | .number _, w => by cases w <;> simp [Value.same]
  | .string _, w => by cases w <;> simp [Value.same]
  | .list vs, w => by cases w <;> simp [Value.same, sameElements_iff vs]
  | .object ms, w => by cases w <;> simp [Value.same, sameMembers_iff ms]

/-- So are the elements of lists. -/
theorem sameElements_iff : ∀ vs ws : List Value, sameElements vs ws = true ↔ vs = ws
  | [], ws => by cases ws <;> simp [sameElements]
  | v :: vs, ws => by cases ws <;> simp [sameElements, v.same_iff, sameElements_iff vs]

/-- So are the members of objects. -/
theorem sameMembers_iff : ∀ ms ns : List (Text × Value), sameMembers ms ns = true ↔ ms = ns
  | [], ns => by cases ns <;> simp [sameMembers]
  | (_, v) :: ms, ns => by
    cases ns <;> simp [sameMembers, v.same_iff, sameMembers_iff ms, Prod.ext_iff]

end

instance : DecidableEq Value := fun v w => decidable_of_iff _ (v.same_iff w)

/-! ## Parts of values -/

/-- The value of a key in an object; the last member of the key counts. -/
def Value.field? (key : Text) : Value → Option Value
  | .object members => (members.reverse.lookup key)
  | _ => none

/-- The text of a string value. -/
def Value.text? : Value → Option Text
  | .string t => some t
  | _ => none

/-! ## Reading values -/

/-- The white space between the parts of a text. -/
def isSpace (c : Char) : Bool := c == ' ' || c == '\n' || c == '\t' || c == '\r'

/-- A text from its first character that is no white space on. -/
def skipSpace (t : Text) : Text := t.dropWhile isSpace

/-- The rest of a text after a word. -/
def expectWord : Text → Text → Except Fault Text
  | [], t => .ok t
  | _ :: _, [] => .error (.before .endInValue [])
  | w :: word, c :: rest =>
    if c = w then expectWord word rest else .error (.past .expectedWord (c :: rest))

/-- The rest of a text after the colon between a key and its value. -/
def expectColon (t : Text) : Except Fault Text :=
  match skipSpace t with
  | [] => .error (.past .endInObject [])
  | ':' :: rest => .ok rest
  | rest => .error (.past .expectedColon rest)

/-- The text after the opening quotation mark of the next key of an object, or nothing and the rest
when the object ends. -/
def nextKey (first : Bool) (t : Text) : Except Fault (Bool × Text) :=
  match skipSpace t with
  | [] => .error (.past .endInObject [])
  | '\x7d' :: rest => .ok (false, rest)
  | c :: rest =>
    if first then if c = '"' then .ok (true, rest) else .error (.past .keyNotString (c :: rest))
    else if c ≠ ',' then .error (.past .expectedObjectEnd (c :: rest))
    else
      match skipSpace rest with
      | [] => .error (.past .endInValue [])
      | '"' :: rest' => .ok (true, rest')
      | '\x7d' :: rest' => .error (.past .trailingComma ('\x7d' :: rest'))
      | rest' => .error (.past .keyNotString rest')

/-- The text at the next element of a list, or nothing and the rest when the list ends. -/
def nextElement (first : Bool) (t : Text) : Except Fault (Bool × Text) :=
  match skipSpace t with
  | [] => .error (.past .endInList [])
  | ']' :: rest => .ok (false, rest)
  | c :: rest =>
    if first then .ok (true, c :: rest)
    else if c ≠ ',' then .error (.past .expectedListEnd (c :: rest))
    else
      match skipSpace rest with
      | [] => .error (.past .endInValue [])
      | ']' :: rest' => .error (.past .trailingComma (']' :: rest'))
      | rest' => .ok (true, rest')

/-- How deep lists and objects may be nested, and one more. -/
def depthLimit : Nat := 128

mutual

/-- The value that a text starts with, read in at most `fuel` steps, and the rest; `depth` more lists
and objects may be open, less one. -/
def readValueWithin : Nat → Nat → Text → Except Fault (Value × Text)
  | 0, _, t => .error (.before .endInValue t)
  | fuel + 1, depth, t =>
    match skipSpace t with
    | [] => .error (.past .endInValue [])
    | 'n' :: rest => (expectWord "ull".toList rest).map fun r => (.null, r)
    | 't' :: rest => (expectWord "rue".toList rest).map fun r => (.bool true, r)
    | 'f' :: rest => (expectWord "alse".toList rest).map fun r => (.bool false, r)
    | '-' :: rest => (readNumber true rest).map fun (n, r) => (.number n, r)
    | '"' :: rest => (readString rest).map fun (s, r) => (.string s, r)
    | '[' :: rest =>
      if depth ≤ 1 then .error (.past .tooDeep ('[' :: rest))
      else (readElementsWithin fuel (depth - 1) true rest).map fun (vs, r) => (.list vs, r)
    | '\x7b' :: rest =>
      if depth ≤ 1 then .error (.past .tooDeep ('\x7b' :: rest))
      else (readMembersWithin fuel (depth - 1) true rest).map fun (ms, r) => (.object ms, r)
    | c :: rest =>
      if Text.isDigit c then (readNumber false (c :: rest)).map fun (n, r) => (.number n, r)
      else .error (.past .expectedValue (c :: rest))

/-- The elements of a list up to its end. -/
def readElementsWithin : Nat → Nat → Bool → Text → Except Fault (List Value × Text)
  | 0, _, _, t => .error (.before .endInList t)
  | fuel + 1, depth, first, t =>
    match nextElement first t with
    | .error f => .error f
    | .ok (false, rest) => .ok ([], rest)
    | .ok (true, rest) =>
      match readValueWithin fuel depth rest with
      | .error f => .error f
      | .ok (v, rest') =>
        (readElementsWithin fuel depth false rest').map fun (vs, r) => (v :: vs, r)

/-- The members of an object up to its end. -/
def readMembersWithin : Nat → Nat → Bool → Text → Except Fault (List (Text × Value) × Text)
  | 0, _, _, t => .error (.before .endInObject t)
  | fuel + 1, depth, first, t =>
    match nextKey first t with
    | .error f => .error f
    | .ok (false, rest) => .ok ([], rest)
    | .ok (true, rest) =>
      match readString rest with
      | .error f => .error f
      | .ok (key, rest') =>
        match expectColon rest' with
        | .error f => .error f
        | .ok rest'' =>
          match readValueWithin fuel depth rest'' with
          | .error f => .error f
          | .ok (v, rest''') =>
            (readMembersWithin fuel depth false rest''').map fun (ms, r) => ((key, v) :: ms, r)

end

/-- Nothing but white space may follow the value of a whole text. -/
def expectEnd (t : Text) : Except Fault Unit :=
  match skipSpace t with
  | [] => .ok ()
  | rest => .error (.past .trailingCharacters rest)

/-- The value of a whole text. -/
def readDocument (t : Text) : Except Fault Value :=
  match readValueWithin (2 * t.length + 2) depthLimit t with
  | .error f => .error f
  | .ok (v, rest) => (expectEnd rest).map fun _ => v

end ChangeGate.Json
