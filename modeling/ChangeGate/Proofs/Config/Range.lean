import ChangeGate.Config.Reader
import ChangeGate.PullRequest.Listing

/-! # Settings in range

**InRange** holds of the settings that pass the check of the ranges. A table gives settings exactly if its
version is understood, its settings have their shapes, and all of them are in range (**`ofTable_eq_ok`**), so
a text only gives settings in range (**`inRange_of_ofText`**). A client takes such settings as they are,
except that it needs a header for its name: this is the one thing that the ranges leave open
(**`Client.of_inRange`**). -/

namespace ChangeGate

namespace Config

/-- **Settings in range.** -/
structure InRange (c : Config) : Prop where
  /-- A page holds a file at least. -/
  pageSize_pos : 1 ≤ c.server.pageSize
  /-- A page holds no more files than the server gives. -/
  pageSize_le : c.server.pageSize ≤ maxPageSize
  /-- A request may take some time. -/
  timeout_pos : 0 < c.server.timeout
  /-- The client has a name. -/
  userAgent_not_blank : Text.blank c.server.userAgent = false
  /-- The output key can be read back. -/
  isKey : Action.isKey c.key = true

variable {c : Config}

/-- **The check of the ranges finds no fault exactly in settings in range.** -/
theorem rangeFault?_eq_none : c.rangeFault? = none ↔ c.InRange := by
  unfold rangeFault?
  -- the tests in their order: each one either finds a fault or leaves its range to the rest
  by_cases hpage : c.server.pageSize < 1 ∨ maxPageSize < c.server.pageSize
  · rw [if_pos hpage]
    refine ⟨fun h => absurd h (by simp), fun h => ?_⟩
    have hlow := h.pageSize_pos
    have hhigh := h.pageSize_le
    omega
  rw [if_neg hpage]
  by_cases htimeout : c.server.timeout = 0
  · rw [if_pos htimeout]
    refine ⟨fun h => absurd h (by simp), fun h => ?_⟩
    exact absurd htimeout (Nat.pos_iff_ne_zero.mp h.timeout_pos)
  rw [if_neg htimeout]
  cases hblank : Text.blank c.server.userAgent with
  | true =>
    rw [if_pos rfl]
    refine ⟨fun h => absurd h (by simp), fun h => ?_⟩
    exact absurd (hblank.symm.trans h.userAgent_not_blank) (by simp)
  | false =>
    rw [if_neg (by simp), Option.map_eq_none_iff, ← Option.isNone_iff_eq_none]
    refine ⟨fun h => ?_, fun h => h.isKey⟩
    exact ⟨by omega, by omega, by omega, hblank, h⟩

/-- The default settings are in range. -/
theorem inRange_default : default.InRange := rangeFault?_eq_none.mp rangeFault?_default

/-- **A table gives settings exactly if** its version is the one that is understood, each setting has its
shape, and the settings are in range. -/
theorem ofTable_eq_ok {members : Toml.Members} :
    ofTable members = .ok c ↔
      version? members = .ok supportedVersion ∧ ofMembers members = .ok c ∧ c.InRange := by
  rw [← rangeFault?_eq_none]
  unfold ofTable
  cases version? members with
  | error f => simp
  | ok v =>
    by_cases hversion : v = supportedVersion
    · rw [hversion]
      cases ofMembers members with
      | error f => simp
      | ok found =>
        -- the fault that is looked for is one of the settings that were found
        cases hfault : found.rangeFault? with
        | some f =>
          simp only [hfault, ne_eq, not_true_eq_false, if_false, reduceCtorEq, true_and, false_iff]
          rintro ⟨hfound, hnone⟩
          rw [Except.ok.inj hfound, hnone] at hfault
          exact absurd hfault (by simp)
        | none =>
          simp only [hfault, ne_eq, not_true_eq_false, if_false, true_and]
          refine ⟨fun hfound => ⟨hfound, ?_⟩, fun h => h.1⟩
          rw [← Except.ok.inj hfound, hfault]
    · simp [hversion]

/-- **A text only gives settings in range.** -/
theorem inRange_of_ofText {t : Text} (h : ofText t = .ok c) : c.InRange := by
  unfold ofText at h
  cases hmembers : Toml.readDocument? t with
  | none =>
    rw [hmembers] at h
    exact absurd h (by simp)
  | some members =>
    rw [hmembers] at h
    exact (ofTable_eq_ok.mp h).2.2

end Config

/-- **A client takes settings in range as they are**, if a header can hold its name: the size of its pages
is the one that is set. -/
theorem PullRequest.Client.of_inRange {c : Config} (h : c.InRange) (address : Text) :
    Client.of c.server address =
      if Http.isHeaderValue c.server.userAgent then
        .ok ⟨withoutSlashes address, c.server.pageSize, c.server.userAgent⟩
      else .error .header := by
  have hsize : max 1 (min c.server.pageSize maxPageSize) = c.server.pageSize := by
    rw [Nat.min_eq_left h.pageSize_le, Nat.max_eq_right h.pageSize_pos]
  rw [Client.of, hsize]

end ChangeGate
