import ChangeGate.Config.Basic
import ChangeGate.Text.Order
import ChangeGate.Toml.Document

/-! # Reading configurations

**Config.ofTable** takes the settings from a table: first the version alone, so that a file for
another version is told so whatever else it holds, then every setting in the order in which the table
gives them, and last the ranges. Keys that are not known are passed over; **unknownKeys** lists them. -/

namespace ChangeGate

open Toml (Members Value)

namespace Config

/-! ## Values -/

/-- A whole number. -/
def wholeNumber (expected : Text) : Value → Except Misfit Int
  | .integer i => .ok i
  | v => .error (.kind v.found expected)

/-- A whole number from zero to a limit. -/
def unsigned (expected : Text) (limit : Nat) (v : Value) : Except Misfit Nat :=
  match wholeNumber expected v with
  | .error m => .error m
  | .ok i =>
    if i < 0 ∨ (limit : Int) < i then .error (.range (.integer i) expected) else .ok i.toNat

/-- A string. -/
def string : Value → Except Misfit Text
  | .string t => .ok t
  | v => .error (.kind v.found "a string".toList)

/-- Settings from a value that gives them by key or, in a list, by position; a date gives none. -/
def record {α : Type} (expected : Text) (keys : List Text)
    (setting : α → Text × Value → Except Misfit α) (start : α) : Value → Except Misfit α
  | .table _ members => members.foldlM setting start
  | .list _ elements => (keys.zip elements).foldlM setting start
  | .date => .ok start
  | v => .error (.kind v.found expected)

/-! ## Settings -/

/-- The known keys of the settings for the server, in their order. -/
def serverKeys : List Text :=
  ["api_url".toList, "per_page".toList, "user_agent".toList, "timeout_secs".toList]

/-- The known keys of the settings for the output, in their order. -/
def outputKeys : List Text := ["key".toList]

/-- The known keys of a whole configuration. -/
def topKeys : List Text := ["version".toList, "github".toList, "output".toList]

/-- The settings for the server after one of them. -/
def serverSetting (s : ServerSettings) (member : Text × Value) : Except Misfit ServerSettings :=
  if member.1 = "api_url".toList then
    (string member.2).map fun t => { s with address := some t }
  else if member.1 = "per_page".toList then
    (unsigned "u32".toList 4294967295 member.2).map fun n => { s with pageSize := n }
  else if member.1 = "user_agent".toList then
    (string member.2).map fun t => { s with userAgent := t }
  else if member.1 = "timeout_secs".toList then
    (unsigned "u64".toList 18446744073709551615 member.2).map fun n => { s with timeout := n }
  else .ok s

/-- The output key after one setting for the output. -/
def outputSetting (key : Text) (member : Text × Value) : Except Misfit Text :=
  if member.1 = "key".toList then string member.2 else .ok key

/-- The settings for the server that a value gives. -/
def serverSettings : Value → Except Misfit ServerSettings :=
  record "struct GitHubConfig".toList serverKeys serverSetting .default

/-- The output key that a value gives. -/
def outputKey : Value → Except Misfit Text :=
  record "struct OutputConfig".toList outputKeys outputSetting Action.defaultKey

/-- The settings after one member of the configuration. -/
def setting (c : Config) (member : Text × Value) : Except Misfit Config :=
  if member.1 = "version".toList then
    (wholeNumber "i64".toList member.2).map fun v => { c with version := v }
  else if member.1 = "github".toList then
    (serverSettings member.2).map fun s => { c with server := s }
  else if member.1 = "output".toList then
    (outputKey member.2).map fun k => { c with key := k }
  else .ok c

/-! ## Whole configurations -/

/-- The version of a configuration. -/
def version? (members : Members) : Except Fault Int :=
  match members.lookup "version".toList with
  | none => .error .missingVersion
  | some v => (wholeNumber "i64".toList v).mapError .misfit

/-- The settings that a table gives, whatever their ranges. -/
def ofMembers (members : Members) : Except Fault Config :=
  (members.foldlM setting default).mapError .misfit

/-- The settings that a table gives. -/
def ofTable (members : Members) : Except Fault Config :=
  match version? members with
  | .error f => .error f
  | .ok v =>
    if v ≠ supportedVersion then .error (.unsupportedVersion v)
    else
      match ofMembers members with
      | .error f => .error f
      | .ok c =>
        match c.rangeFault? with
        | some f => .error f
        | none => .ok c

/-- The settings that a text gives. -/
def ofText (t : Text) : Except Fault Config :=
  match Toml.readDocument? t with
  | none => .error .malformed
  | some members => ofTable members

/-! ## Unknown keys -/

/-- The unknown keys of one member; those of a known section follow its key and a point. -/
def unknownIn (member : Text × Value) : List Text :=
  let below (known : List Text) : List Text :=
    match member.2 with
    | .table _ inner =>
      (inner.map (·.1)).filterMap fun k =>
        if known.contains k then none else some (member.1 ++ '.' :: k)
    | _ => []
  if !topKeys.contains member.1 then [member.1]
  else if member.1 = "github".toList then below serverKeys
  else if member.1 = "output".toList then below outputKeys
  else []

/-- The unknown keys of a table, in ascending order. -/
def unknownKeys (members : Members) : List Text := Text.ascending (members.flatMap unknownIn)

/-- The unknown keys of a text. -/
def unknownKeysOf (t : Text) : List Text := (Toml.readDocument? t).elim [] unknownKeys

@[simp] theorem unknownKeys_nil : unknownKeys [] = [] := rfl

/-- A key is unknown exactly if some member says so. -/
theorem mem_unknownKeys {k : Text} {members : Members} :
    k ∈ unknownKeys members ↔ ∃ m ∈ members, k ∈ unknownIn m := by simp [unknownKeys]

end Config

end ChangeGate
