import ChangeGate.Config.Reader
import ChangeGate.Proofs.Toml.Tables

/-! # The version comes first

The version of a configuration is looked for on its own, before any setting is read. So a document without a
version, or with one that is not understood, is refused for exactly this reason, whatever else it holds
(**`ofText_version`**). -/

namespace ChangeGate.Config

open Toml (Members Value)

variable {members : Members} {f : Fault} {i : Int} {t : Text}

/-! ## (1) What a table is refused for -/

/-- There is no version exactly if no member gives it. -/
theorem version?_eq_missing :
    version? members = .error .missingVersion ↔ members.lookup "version".toList = none := by
  unfold version?
  cases members.lookup "version".toList with
  | none => simp
  | some v => cases v <;> simp [wholeNumber, Except.mapError]

/-- The version is a number exactly if a member gives it. -/
theorem version?_eq_ok :
    version? members = .ok i ↔ members.lookup "version".toList = some (.integer i) := by
  unfold version?
  cases members.lookup "version".toList with
  | none => simp
  | some v => cases v <;> simp [wholeNumber, Except.mapError]

/-- A version that is looked for is never found to be one that is not understood. -/
theorem version?_ne_unsupported : version? members ≠ .error (.unsupportedVersion i) := by
  unfold version?
  cases members.lookup "version".toList with
  | none => simp
  | some v => cases v <;> simp [wholeNumber, Except.mapError]

/-- **Every way in which a table is refused**: for its version, for the shape of a setting, or for a range; each
of them only if the ones before it are in order. -/
theorem ofTable_eq_error :
    ofTable members = .error f ↔
      version? members = .error f ∨
      (∃ i, version? members = .ok i ∧ i ≠ supportedVersion ∧ f = .unsupportedVersion i) ∨
      (version? members = .ok supportedVersion ∧ ofMembers members = .error f) ∨
      (version? members = .ok supportedVersion ∧
        ∃ c, ofMembers members = .ok c ∧ c.rangeFault? = some f) := by
  unfold ofTable
  cases version? members with
  | error g => simp
  | ok i =>
    dsimp only
    by_cases hversion : i = supportedVersion
    · rw [if_neg (not_not.mpr hversion)]
      cases ofMembers members with
      | error g => simp [hversion]
      | ok c => cases hrange : c.rangeFault? <;> simp [hversion, hrange]
    · rw [if_pos hversion]
      simp [hversion, eq_comm]

/-- The faults of the version. -/
def Fault.IsOfVersion : Fault → Prop
  | .missingVersion => True
  | .unsupportedVersion _ => True
  | _ => False

/-- The shape of a setting is no matter of the version. -/
theorem not_isOfVersion_of_ofMembers (h : ofMembers members = .error f) : ¬ f.IsOfVersion := by
  unfold ofMembers at h
  cases hfold : members.foldlM setting default with
  | error m =>
    rw [hfold] at h
    rw [← Except.error.inj h]
    exact id
  | ok c =>
    rw [hfold] at h
    exact absurd h (by simp [Except.mapError])

/-- A range is no matter of the version. -/
theorem not_isOfVersion_of_rangeFault {c : Config} (h : c.rangeFault? = some f) :
    ¬ f.IsOfVersion := by
  unfold rangeFault? at h
  split at h
  · rw [← Option.some.inj h]
    exact id
  split at h
  · rw [← Option.some.inj h]
    exact id
  split at h
  · rw [← Option.some.inj h]
    exact id
  · obtain ⟨cause, -, rfl⟩ := Option.map_eq_some_iff.mp h
    exact id

/-- **A fault of the version is found before any other**, and nowhere else. -/
theorem ofTable_eq_error_of_version (hf : f.IsOfVersion) :
    ofTable members = .error f ↔
      version? members = .error f ∨
        ∃ i, version? members = .ok i ∧ i ≠ supportedVersion ∧ f = .unsupportedVersion i := by
  rw [ofTable_eq_error]
  constructor
  · rintro (hmissing | hother | ⟨-, hshape⟩ | ⟨-, c, -, hrange⟩)
    · exact .inl hmissing
    · exact .inr hother
    · exact absurd hf (not_isOfVersion_of_ofMembers hshape)
    · exact absurd hf (not_isOfVersion_of_rangeFault hrange)
  · rintro (hmissing | hother)
    · exact .inl hmissing
    · exact .inr (.inl hother)

/-- A table is told that its version is missing exactly if no member gives it. -/
theorem ofTable_eq_missing :
    ofTable members = .error .missingVersion ↔ members.lookup "version".toList = none := by
  have hf : Fault.missingVersion.IsOfVersion := trivial
  rw [ofTable_eq_error_of_version hf, version?_eq_missing]
  simp

/-- A table is told that its version is not understood exactly if a member gives another one. -/
theorem ofTable_eq_unsupported :
    ofTable members = .error (.unsupportedVersion i) ↔
      members.lookup "version".toList = some (.integer i) ∧ i ≠ supportedVersion := by
  have hf : (Fault.unsupportedVersion i).IsOfVersion := trivial
  rw [ofTable_eq_error_of_version hf, ← version?_eq_ok]
  constructor
  · rintro (hfound | ⟨j, hj, hne, hij⟩)
    · exact absurd hfound version?_ne_unsupported
    · obtain rfl := Fault.unsupportedVersion.inj hij
      exact ⟨hj, hne⟩
  · rintro ⟨hi, hne⟩
    exact .inr ⟨i, hi, hne, rfl⟩

/-! ## (2) Documents with another version -/

/-- **Whatever else a document holds, it is told about its version first.** Without a version, and with a
version that is not understood, this is the fault that is found, and it names the version. So two documents
that agree on such a version are refused alike. -/
theorem ofText_version (hread : Toml.readDocument? t = some members) :
    (ofText t = .error .missingVersion ↔ members.lookup "version".toList = none) ∧
    (∀ i, ofText t = .error (.unsupportedVersion i) ↔
      members.lookup "version".toList = some (.integer i) ∧ i ≠ 1) ∧
    (∀ i, (Fault.unsupportedVersion i).message =
      "unsupported config version ".toList ++ Text.ofInt i ++
        " (supported: 1)\n  Upgrade pathgate to use this config.".toList) ∧
    ∀ t' members', Toml.readDocument? t' = some members' →
      members'.lookup "version".toList = members.lookup "version".toList →
      (∀ v, members.lookup "version".toList = some v → ∃ i, v = .integer i ∧ i ≠ 1) →
      ofText t' = ofText t := by
  have htable : ∀ {t members}, Toml.readDocument? t = some members → ofText t = ofTable members := by
    intro t members h
    rw [ofText, h]
  rw [htable hread]
  refine ⟨ofTable_eq_missing, fun i => ofTable_eq_unsupported, ?_, ?_⟩
  · intro i
    have hsupported : " (supported: ".toList ++ (Text.ofInt supportedVersion ++
        ")\n  Upgrade pathgate to use this config.".toList) =
        " (supported: 1)\n  Upgrade pathgate to use this config.".toList := by decide
    unfold Fault.message
    rw [← hsupported]
    simp only [List.append_assoc]
  · intro t' members' hread' hagree hgate
    rw [htable hread']
    cases hversion : members.lookup "version".toList with
    | none =>
      rw [ofTable_eq_missing.mpr hversion, ofTable_eq_missing.mpr (hagree.trans hversion)]
    | some v =>
      obtain ⟨i, rfl, hne⟩ := hgate v hversion
      rw [ofTable_eq_unsupported.mpr ⟨hversion, hne⟩,
        ofTable_eq_unsupported.mpr ⟨hagree.trans hversion, hne⟩]

/-- A document of a later format: one section is a date, the other one a list, and there are keys that are not
known. -/
def laterText : Text :=
  "version = 2\ngithub = 1979-05-27\n[[output]]\nkey = true\n[extra]\n".toList

/-- The table of this document. -/
def laterMembers : Members :=
  [("version".toList, .integer 2), ("github".toList, .date),
    ("output".toList, .list true [.table .header [("key".toList, .bool true)]]),
    ("extra".toList, .table .header [])]

/-- It is refused for its version alone, as is a document that gives nothing but this version. -/
theorem ofText_version_later :
    Toml.readDocument? laterText = some laterMembers ∧
    laterMembers.lookup "version".toList = some (.integer 2) ∧
    ofText laterText = .error (.unsupportedVersion 2) ∧
    ofText "version = 2".toList = ofText laterText := by
  have hread : Toml.readDocument? laterText = some laterMembers := by decide +kernel
  have hbare : Toml.readDocument? "version = 2".toList =
      some [("version".toList, .integer 2)] := by decide +kernel
  obtain ⟨-, hunsupported, -, hagree⟩ := ofText_version hread
  refine ⟨hread, rfl, (hunsupported 2).mpr ⟨rfl, by decide⟩, ?_⟩
  apply hagree _ _ hbare rfl
  intro v hv
  exact ⟨2, (Option.some.inj hv).symm, by decide⟩

end ChangeGate.Config
