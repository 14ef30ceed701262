import ChangeGate.Proofs.Config.Range
import ChangeGate.Proofs.Config.Reading
import ChangeGate.Proofs.Config.Version

/-! # Admissible documents

A table is **admissible** when it gives the version that is understood, and each of its fields has its shape
and is in range. A document whose sections are tables gives a configuration exactly if its table is
admissible, and this is the configuration in which each field that is given has its value and each other one
its default (**`ofText_eq_ok_iff`**). -/

namespace ChangeGate.Config

open Toml (Members Value)

variable {members : Members} {c : Config} {v : Value}

/-! ## (1) Admissible tables -/

/-- The text that a value is. -/
def textOf? : Value → Option Text
  | .string t => some t
  | _ => none

/-- The number that a value is. -/
def numberOf? : Value → Option Nat
  | .integer i => some i.toNat
  | _ => none

/-- **An admissible table**: the version is the one that is understood, and each field that is given has its
shape and is in range. -/
structure Admissible (members : Members) : Prop where
  version : members.lookup "version".toList = some (.integer 1)
  address : ∀ v, field? "github".toList "api_url".toList members = some v → ∃ t, v = .string t
  pageSize : ∀ v, field? "github".toList "per_page".toList members = some v →
    ∃ n : Nat, v = .integer n ∧ 1 ≤ n ∧ n ≤ 100
  userAgent : ∀ v, field? "github".toList "user_agent".toList members = some v →
    ∃ t, v = .string t ∧ Text.blank t = false
  timeout : ∀ v, field? "github".toList "timeout_secs".toList members = some v →
    ∃ n : Nat, v = .integer n ∧ 1 ≤ n ∧ n ≤ 9223372036854775807
  key : ∀ v, field? "output".toList "key".toList members = some v →
    ∃ t, v = .string t ∧ Text.blank t = false ∧ '=' ∉ t ∧ '\n' ∉ t ∧ '\x0d' ∉ t

/-- **The configuration that a table gives**: each field that is given has its value, and each other one its
default. -/
def asGiven (members : Members) : Config where
  version := 1
  server :=
    { address := (field? "github".toList "api_url".toList members).bind textOf?
      pageSize := ((field? "github".toList "per_page".toList members).bind numberOf?).getD 100
      userAgent :=
        ((field? "github".toList "user_agent".toList members).bind textOf?).getD "pathgate".toList
      timeout := ((field? "github".toList "timeout_secs".toList members).bind numberOf?).getD 30 }
  key := ((field? "output".toList "key".toList members).bind textOf?).getD "changed".toList

/-! ## (2) Settings in range -/

section Ranges

variable {o : Option Value} {n : Nat} {t : Text}

theorem wholeNumber_eq_ok {expected : Text} {i : Int} :
    wholeNumber expected v = .ok i ↔ v = .integer i := by
  cases v <;> simp [wholeNumber]

theorem string_eq_ok : string v = .ok t ↔ v = .string t := by
  cases v <;> simp [string]

theorem unsigned_eq_ok {expected : Text} {limit : Nat} :
    unsigned expected limit v = .ok n ↔ v = .integer n ∧ n ≤ limit := by
  unfold unsigned
  cases hwhole : wholeNumber expected v with
  | error m =>
    have hnone : v ≠ .integer n := fun hv => by simp [wholeNumber, hv] at hwhole
    simp [hnone]
  | ok i =>
    obtain rfl := wholeNumber_eq_ok.mp hwhole
    dsimp only
    by_cases hrange : i < 0 ∨ (limit : Int) < i
    · rw [if_pos hrange]
      simp only [reduceCtorEq, Value.integer.injEq, false_iff, not_and]
      omega
    · rw [if_neg hrange]
      simp only [Except.ok.injEq, Value.integer.injEq]
      omega

/-- **A setting with a range.** Where a default is in range, a setting is settled in range exactly if the
value that is given, if any, `Is` in range; the setting is then that value or the default. -/
theorem settles_and_iff {β : Type} {read : Value → Except Misfit β} {default b : β}
    {get : Value → Option β} (InRange : β → Prop) (Is : Value → β → Prop) (hdefault : InRange default)
    (hread : ∀ v b, o = some v → (read v = .ok b ∧ InRange b ↔ Is v b))
    (hget : ∀ v b, Is v b → get v = some b) :
    Settles read default o b ∧ InRange b ↔
      (∀ v, o = some v → ∃ b, Is v b) ∧ b = (o.bind get).getD default := by
  cases o with
  | none =>
    constructor
    · rintro ⟨hsettles, -⟩
      obtain rfl : default = b := Except.ok.inj hsettles
      exact ⟨by simp, rfl⟩
    · rintro ⟨-, rfl⟩
      exact ⟨rfl, hdefault⟩
  | some v =>
    constructor
    · intro h
      have his : Is v b := (hread v b rfl).mp h
      refine ⟨?_, ?_⟩
      · rintro w hw
        obtain rfl := Option.some.inj hw
        exact ⟨b, his⟩
      · rw [Option.bind_some, hget v b his, Option.getD_some]
    · rintro ⟨hgiven, rfl⟩
      obtain ⟨b, his⟩ := hgiven v rfl
      rw [Option.bind_some, hget v b his, Option.getD_some]
      exact (hread v b rfl).mpr his

theorem textOf_of_eq (h : v = .string t) : textOf? v = some t := by
  rw [h, textOf?]

theorem numberOf_of_eq (h : v = .integer n) : numberOf? v = some n := by
  rw [h, numberOf?, Int.toNat_natCast]

theorem address_iff {a : Option Text} :
    Settles (fun v => (string v).map some) none o a ↔
      (∀ v, o = some v → ∃ t, v = .string t) ∧ a = o.bind textOf? := by
  cases o with
  | none => simp [Settles, eq_comm]
  | some v => cases v <;> simp [Settles, string, Except.map, textOf?, eq_comm]

theorem pageSize_iff :
    Settles (unsigned "u32".toList 4294967295) maxPageSize o n ∧ (1 ≤ n ∧ n ≤ maxPageSize) ↔
      (∀ v, o = some v → ∃ n : Nat, v = .integer n ∧ 1 ≤ n ∧ n ≤ 100) ∧
        n = (o.bind numberOf?).getD 100 := by
  refine settles_and_iff (fun n => 1 ≤ n ∧ n ≤ maxPageSize)
    (fun v n => v = .integer n ∧ 1 ≤ n ∧ n ≤ 100) (by decide) ?_ fun v n h => numberOf_of_eq h.1
  intro v n _
  rw [unsigned_eq_ok, maxPageSize]
  constructor
  · rintro ⟨⟨hv, -⟩, hrange⟩
    exact ⟨hv, hrange⟩
  · rintro ⟨hv, hrange⟩
    exact ⟨⟨hv, by omega⟩, hrange⟩

theorem userAgent_iff :
    Settles string "pathgate".toList o t ∧ Text.blank t = false ↔
      (∀ v, o = some v → ∃ t, v = .string t ∧ Text.blank t = false) ∧
        t = (o.bind textOf?).getD "pathgate".toList := by
  refine settles_and_iff (fun t => Text.blank t = false)
    (fun v t => v = .string t ∧ Text.blank t = false) (by decide) ?_ fun v t h => textOf_of_eq h.1
  intro v t _
  rw [string_eq_ok]

/-- A number of seconds that a document gives fits into 64 bits, so the range of the reader is no limit. -/
theorem timeout_iff (hsound : ∀ v, o = some v → v.IsSound) :
    Settles (unsigned "u64".toList 18446744073709551615) 30 o n ∧ 0 < n ↔
      (∀ v, o = some v → ∃ n : Nat, v = .integer n ∧ 1 ≤ n ∧ n ≤ 9223372036854775807) ∧
        n = (o.bind numberOf?).getD 30 := by
  refine settles_and_iff (fun n : Nat => 0 < n)
    (fun v n => v = .integer n ∧ 1 ≤ n ∧ n ≤ 9223372036854775807) (by decide) ?_
    fun v n h => numberOf_of_eq h.1
  intro v n hv
  rw [unsigned_eq_ok]
  constructor
  · rintro ⟨⟨rfl, -⟩, hpos⟩
    cases hsound _ hv with
    | integer hword => exact ⟨rfl, hpos, by have := hword.2; omega⟩
  · rintro ⟨hv, hpos, hle⟩
    exact ⟨⟨hv, by omega⟩, hpos⟩

theorem key_iff :
    Settles string Action.defaultKey o t ∧ Action.isKey t = true ↔
      (∀ v, o = some v → ∃ t, v = .string t ∧ Text.blank t = false ∧ '=' ∉ t ∧ '\n' ∉ t ∧
        '\x0d' ∉ t) ∧ t = (o.bind textOf?).getD "changed".toList := by
  refine settles_and_iff (fun t => Action.isKey t = true)
    (fun v t => v = .string t ∧ Text.blank t = false ∧ '=' ∉ t ∧ '\n' ∉ t ∧ '\x0d' ∉ t)
    Action.isKey_defaultKey ?_ fun v t h => textOf_of_eq h.1
  intro v t _
  rw [string_eq_ok, Action.isKey_iff]

end Ranges

/-! ## (3) Whole documents -/

/-- **A table with whole sections is taken exactly if it is admissible**, and then for what it gives. -/
theorem ofTable_eq_ok_iff (hsound : members.IsSound) (htables : HasTables members) :
    ofTable members = .ok c ↔ Admissible members ∧ c = asGiven members := by
  rw [ofTable_eq_ok, version?_eq_ok, ofMembers_eq_ok hsound htables, supportedVersion]
  constructor
  · rintro ⟨hversion, hsettled, hrange⟩
    obtain ⟨haddress, haddress'⟩ := address_iff.mp hsettled.server.address
    obtain ⟨hpageSize, hpageSize'⟩ :=
      pageSize_iff.mp ⟨hsettled.server.pageSize, hrange.pageSize_pos, hrange.pageSize_le⟩
    obtain ⟨huserAgent, huserAgent'⟩ :=
      userAgent_iff.mp ⟨hsettled.server.userAgent, hrange.userAgent_not_blank⟩
    obtain ⟨htimeout, htimeout'⟩ := (timeout_iff fun v hv => isSound_of_field hsound hv).mp
      ⟨hsettled.server.timeout, hrange.timeout_pos⟩
    obtain ⟨hkey, hkey'⟩ := key_iff.mp ⟨hsettled.key, hrange.isKey⟩
    have hnumber := wholeNumber_eq_ok.mp (hsettled.version.of_given hversion)
    refine ⟨⟨hversion, haddress, hpageSize, huserAgent, htimeout, hkey⟩, ?_⟩
    -- each field of the configuration is the one that is given
    obtain ⟨version, ⟨address, pageSize, userAgent, timeout⟩, key⟩ := c
    dsimp only at haddress' hpageSize' huserAgent' htimeout' hkey' hnumber
    obtain rfl : 1 = version := Value.integer.inj hnumber
    subst haddress' hpageSize' huserAgent' htimeout' hkey'
    rfl
  · rintro ⟨h, rfl⟩
    have haddress := address_iff.mpr ⟨h.address, rfl⟩
    have hpageSize := pageSize_iff.mpr ⟨h.pageSize, rfl⟩
    have huserAgent := userAgent_iff.mpr ⟨h.userAgent, rfl⟩
    have htimeout := (timeout_iff fun v hv => isSound_of_field hsound hv).mpr ⟨h.timeout, rfl⟩
    have hkey := key_iff.mpr ⟨h.key, rfl⟩
    have hversion : Settles (wholeNumber "i64".toList) supportedVersion
        (members.lookup "version".toList) 1 := by
      rw [h.version]
      rfl
    exact ⟨h.version, ⟨hversion, ⟨haddress, hpageSize.1, huserAgent.1, htimeout.1⟩, hkey.1⟩,
      ⟨hpageSize.2.1, hpageSize.2.2, htimeout.2, huserAgent.2, hkey.2⟩⟩

/-- **A document gives a configuration exactly if its table is admissible**, provided that the sections that
it has are tables. The configuration is then what the table gives, field by field; in every other case there
is a fault and no configuration. -/
theorem ofText_eq_ok_iff {t : Text} (hread : Toml.readDocument? t = some members)
    (htables : HasTables members) :
    (∀ c, ofText t = .ok c ↔ Admissible members ∧ c = asGiven members) ∧
    (¬ Admissible members → ∃ f, ofText t = .error f) := by
  have htext : ofText t = ofTable members := by rw [ofText, hread]
  have hiff := fun c => ofTable_eq_ok_iff (c := c) (Toml.isSound_of_readDocument hread) htables
  rw [htext]
  refine ⟨hiff, ?_⟩
  intro hnot
  cases htable : ofTable members with
  | error f => exact ⟨f, rfl⟩
  | ok c => exact absurd ((hiff c).mp htable).1 hnot

/-- A document that gives the settings for the server by dotted keys, and the output key between braces. -/
def dottedText : Text :=
  ("version = 1\ngithub.per_page = 7\ngithub.timeout_secs = 9223372036854775807\n" ++
    "output = \x7bkey = \"docs\"\x7d\n").toList

/-- The table of this document. -/
def dottedMembers : Members :=
  [("version".toList, .integer 1),
    ("github".toList, .table .dotted
      [("per_page".toList, .integer 7), ("timeout_secs".toList, .integer 9223372036854775807)]),
    ("output".toList, .table .braces [("key".toList, .string "docs".toList)])]

/-- The longest time that a document can write is taken, and the fields that are not given have their
defaults. -/
theorem ofText_eq_ok_iff_dotted :
    Toml.readDocument? dottedText = some dottedMembers ∧ HasTables dottedMembers ∧
    ofText dottedText =
      .ok ⟨1, ⟨none, 7, "pathgate".toList, 9223372036854775807⟩, "docs".toList⟩ := by
  have hread : Toml.readDocument? dottedText = some dottedMembers := by decide +kernel
  have htables : HasTables dottedMembers := by
    rintro ⟨part, known⟩ hpart v hv
    rcases mem_sections.mp hpart with ⟨rfl, rfl⟩ | ⟨rfl, rfl⟩
    · exact ⟨_, _, (Option.some.inj hv).symm⟩
    · exact ⟨_, _, (Option.some.inj hv).symm⟩
  have hadmissible : Admissible dottedMembers :=
    { version := rfl
      address := fun v hv => absurd (show none = some v from hv) (by simp)
      pageSize := fun v hv => ⟨7, (Option.some.inj hv).symm, by decide, by decide⟩
      userAgent := fun v hv => absurd (show none = some v from hv) (by simp)
      timeout := fun v hv => ⟨9223372036854775807, (Option.some.inj hv).symm, by decide, by decide⟩
      key := fun v hv => ⟨"docs".toList, (Option.some.inj hv).symm, by decide⟩ }
  refine ⟨hread, htables, ?_⟩
  exact ((ofText_eq_ok_iff hread htables).1 _).mpr ⟨hadmissible, rfl⟩

end ChangeGate.Config
