import ChangeGate.Number.Shortest
import ChangeGate.Shape.Misfit
import ChangeGate.Text.Quoted

/-! # Values of TOML

A table keeps its members in the order in which they were first placed. Where a table came from
decides how it may grow, and the same holds for lists: **assign** gives a member by a dotted key,
**defineTable** opens the table of a header, and **appendTable** adds an element to a list of tables.
Each of them fails if the document would then say something twice. -/

namespace ChangeGate.Toml

/-- Where a table came from. -/
inductive Origin where
  /-- It was written out between braces, so it is complete. -/
  | braces
  /-- A header names it. -/
  | header
  /-- It lies on the way to the table of a header. -/
  | passing
  /-- It lies on the way to the member of a dotted key. -/
  | dotted
deriving DecidableEq, Repr

/-- A value. -/
inductive Value where
  /-- A truth value. -/
  | bool (b : Bool)
  /-- A whole number of 64 bits. -/
  | integer (i : Int)
  /-- A double. -/
  | float (x : Binary64)
  /-- A string. -/
  | string (t : Text)
  /-- A date, a time, or both. -/
  | date
  /-- A list; it can grow if it was made by the headers of its elements. -/
  | list (grows : Bool) (elements : List Value)
  /-- A table. -/
  | table (origin : Origin) (members : List (Text × Value))

/-! ## Equality -/

mutual

/-- Whether two values are the same. -/
def Value.same : Value → Value → Bool
  | .bool a, .bool b => a == b
  | .integer i, .integer j => i == j
  | .float x, .float y => x == y
  | .string s, .string t => s == t
  | .date, .date => true
  | .list g vs, .list h ws => g == h && sameElements vs ws
  | .table o ms, .table p ns => o == p && sameMembers ms ns
  | _, _ => false

/-- Whether two lists have the same elements. -/
def sameElements : List Value → List Value → Bool
  | [], [] => true
  | v :: vs, w :: ws => v.same w && sameElements vs ws
  | _, _ => false

/-- Whether two tables have the same members, in the same order. -/
def sameMembers : List (Text × Value) → List (Text × Value) → Bool
  | [], [] => true
  | (k, v) :: ms, (l, w) :: ns => k == l && v.same w && sameMembers ms ns
  | _, _ => false

end

mutual

/-- Values are the same exactly if they are equal. -/
theorem Value.same_iff : ∀ v w : Value, v.same w = true ↔ v = w
  | .bool _, w => by cases w <;> simp [Value.same]
  | .integer _, w => by cases w <;> simp [Value.same]
  | .float _, w => by cases w <;> simp [Value.same]
  | .string _, w => by cases w <;> simp [Value.same]
  | .date, w => by cases w <;> simp [Value.same]
  | .list _ vs, w => by cases w <;> simp [Value.same, sameElements_iff vs]
  | .table _ ms, w => by cases w <;> simp [Value.same, sameMembers_iff ms]

/-- So are the elements of lists. -/
theorem sameElements_iff : ∀ vs ws : List Value, sameElements vs ws = true ↔ vs = ws
  | [], ws => by cases ws <;> simp [sameElements]
  | v :: vs, ws => by cases ws <;> simp [sameElements, v.same_iff, sameElements_iff vs]

/-- So are the members of tables. -/
theorem sameMembers_iff : ∀ ms ns : List (Text × Value), sameMembers ms ns = true ↔ ms = ns
  | [], ns => by cases ns <;> simp [sameMembers]
  | (_, v) :: ms, ns => by
    cases ns <;> simp [sameMembers, v.same_iff, sameMembers_iff ms, Prod.ext_iff]

end

instance : DecidableEq Value := fun v w => decidable_of_iff _ (v.same_iff w)

/-! ## Members of tables -/

/-- Members of a table, in order. -/
abbrev Members := List (Text × Value)

/-- The description of a value that is not what is expected; a date is described as an object. -/
def Value.found : Value → Found
  | .bool b => .bool b
  | .integer i => .integer i
  | .float x => .float x.toPositional
  | .string t => .string (Text.quoted t)
  | .date => .object
  | .list _ _ => .list
  | .table _ _ => .object

namespace Members

/-- Members in which the one of a key is replaced, or added at the end. -/
def alter (key : Text) (f : Option Value → Option Value) : Members → Option Members
  | [] => (f none).map fun v => [(key, v)]
  | (k, v) :: rest =>
    if k = key then (f (some v)).map fun w => (k, w) :: rest
    else (alter key f rest).map fun r => (k, v) :: r

/-- A list of tables with the members of the last one changed. -/
def alterLast (f : Members → Option Members) : List Value → Option (List Value)
  | [] => none
  | [.table origin ms] => (f ms).map fun r => [.table origin r]
  | [_] => none
  | v :: w :: rest => (alterLast f (w :: rest)).map fun r => v :: r

/-- Whether a table may get members by dotted keys. -/
def growsByKey : Origin → Bool
  | .passing => true
  | .dotted => true
  | _ => false

/-- Members with a further one at the end of a dotted key. The tables on the way must have been made
by headers or dotted keys on the way to something, and the last of them by a dotted key. -/
def assign (key : Text) (v : Value) : List Text → Members → Option Members
  | [], ms => if (ms.lookup key).isSome then none else some (ms ++ [(key, v)])
  | k :: path, ms =>
    alter k (fun
      | none => (assign key v path []).map (Value.table .dotted)
      | some (.table origin inner) =>
        if growsByKey origin && (!path.isEmpty || origin == .dotted) then
          (assign key v path inner).map (Value.table origin)
        else none
      | some (.list true elements) =>
        if path.isEmpty then none
        else (alterLast (assign key v path) elements).map (Value.list true)
      | some _ => none) ms

/-- Members changed at the table that a path of headers leads to. -/
def within (f : Members → Option Members) : List Text → Members → Option Members
  | [], ms => f ms
  | k :: path, ms =>
    alter k (fun
      | none => (within f path []).map (Value.table .passing)
      | some (.table .braces _) => none
      | some (.table origin inner) => (within f path inner).map (Value.table origin)
      | some (.list true elements) => (alterLast (within f path) elements).map (Value.list true)
      | some _ => none) ms

/-- Members with the table of a header: a new one, or one that headers have only passed so far. -/
def defineTable (key : Text) (ms : Members) : Option Members :=
  match ms.lookup key with
  | none => some (ms ++ [(key, .table .header [])])
  | some (.table .passing inner) =>
    some (ms.filter (fun m => m.1 != key) ++ [(key, .table .header inner)])
  | some _ => none

/-- Members with a further table in the list of a header. -/
def appendTable (key : Text) : Members → Option Members :=
  alter key fun
    | none => some (.list true [.table .header []])
    | some (.list true elements) => some (.list true (elements ++ [.table .header []]))
    | some _ => none

@[simp] theorem alter_nil (key : Text) (f : Option Value → Option Value) :
    alter key f [] = (f none).map fun v => [(key, v)] := rfl

@[simp] theorem assign_nil (key : Text) (v : Value) (ms : Members) :
    assign key v [] ms = if (ms.lookup key).isSome then none else some (ms ++ [(key, v)]) := rfl

end Members

end ChangeGate.Toml
