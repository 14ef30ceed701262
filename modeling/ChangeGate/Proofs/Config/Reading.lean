import ChangeGate.Config.Reader
import ChangeGate.Proofs.Basic
import ChangeGate.Proofs.Toml.Tables

/-! # Settings field by field

The settings are taken from a table member by member, and each member changes the setting of its key at most
(`setting_frame`, `serverSetting_frame`). If no key is given twice, the order of the members does not matter:
a setting is **settled** by the member of its key, or else it keeps its default (**`Reads.foldlM`**). So a
table gives a configuration exactly if the configuration is settled by its fields (**`ofMembers_eq_ok`**). -/

namespace ChangeGate.Config

open Toml (Members Value)

/-! ## (1) Reading one member after another -/

section Folding

variable {α β : Type} {setting : α → Text × Value → Except Misfit α} {key : Text} {view : α → β}
  {read : Value → Except Misfit β} {ms : Members} {s s' : α}

/-- **A setting is settled** by the value that is given for it, or else by its default. -/
def Settles (read : Value → Except Misfit β) (default : β) (given : Option Value) (b : β) : Prop :=
  given.elim (.ok default) read = .ok b

/-- **A view of the settings that one key decides**: the member of the key gives the view anew, and no
other member changes it. -/
structure Reads (setting : α → Text × Value → Except Misfit α) (key : Text) (view : α → β)
    (read : Value → Except Misfit β) : Prop where
  given : ∀ {s s' v}, setting s (key, v) = .ok s' → read v = .ok (view s')
  kept : ∀ {s s' k v}, k ≠ key → setting s (k, v) = .ok s' → view s' = view s

/-- **After all members, the view is settled by the member of its key**: induction on the members, where the
key is given once at most. -/
theorem Reads.foldlM (h : Reads setting key view read) (hnodup : (ms.map Prod.fst).Nodup)
    (hfold : ms.foldlM setting s = .ok s') :
    Settles read (view s) (ms.lookup key) (view s') := by
  induction ms generalizing s with
  | nil =>
    obtain rfl : s = s' := Except.ok.inj hfold
    rfl
  | cons m ms ih =>
    obtain ⟨k, v⟩ := m
    rw [List.foldlM_cons, bind_eq_ok] at hfold
    obtain ⟨s₁, hfirst, hrest⟩ := hfold
    rw [List.map_cons, List.nodup_cons] at hnodup
    have hsettled := ih hnodup.2 hrest
    rw [List.lookup_cons]
    by_cases hkey : key = k
    · subst hkey
      -- the key is not given again, so the view stays as this member gives it
      rw [Toml.Members.lookup_eq_none.mpr hnodup.1] at hsettled
      obtain hview : view s₁ = view s' := Except.ok.inj hsettled
      rw [beq_self_eq_true, Settles, ← hview]
      exact h.given hfirst
    · rw [show (key == k) = false by simpa using hkey, ← h.kept (Ne.symm hkey) hfirst]
      exact hsettled

/-- Members can be read one after another if each of them can be read at all. -/
theorem exists_foldlM (hfits : ∀ m ∈ ms, ∀ s, ∃ s', setting s m = .ok s') (s : α) :
    ∃ s', ms.foldlM setting s = .ok s' := by
  induction ms generalizing s with
  | nil => exact ⟨s, rfl⟩
  | cons m ms ih =>
    obtain ⟨s₁, hfirst⟩ := hfits m List.mem_cons_self s
    obtain ⟨s', hrest⟩ := ih (fun m hm => hfits m (List.mem_cons_of_mem _ hm)) s₁
    exact ⟨s', by rw [List.foldlM_cons, hfirst]; exact hrest⟩

end Folding

/-! ## (2) What one member changes -/

section Steps

variable {s s' : ServerSettings} {c c' : Config} {key key' : Text} {k : Text} {v : Value}

theorem serverSetting_address : serverSetting s ("api_url".toList, v) =
    (string v).map fun t => { s with address := some t } := rfl

theorem serverSetting_pageSize : serverSetting s ("per_page".toList, v) =
    (unsigned "u32".toList 4294967295 v).map fun n => { s with pageSize := n } := rfl

theorem serverSetting_userAgent : serverSetting s ("user_agent".toList, v) =
    (string v).map fun t => { s with userAgent := t } := rfl

theorem serverSetting_timeout : serverSetting s ("timeout_secs".toList, v) =
    (unsigned "u64".toList 18446744073709551615 v).map fun n => { s with timeout := n } := rfl

theorem outputSetting_key : outputSetting key ("key".toList, v) = string v := rfl

theorem setting_version : setting c ("version".toList, v) =
    (wholeNumber "i64".toList v).map fun i => { c with version := i } := rfl

theorem setting_server : setting c ("github".toList, v) =
    (serverSettings v).map fun s => { c with server := s } := rfl

theorem setting_key : setting c ("output".toList, v) =
    (outputKey v).map fun t => { c with key := t } := rfl

theorem mem_topKeys : k ∈ topKeys ↔
    k = "version".toList ∨ k = "github".toList ∨ k = "output".toList := by
  simp only [topKeys, List.mem_cons, List.not_mem_nil, or_false]

theorem mem_serverKeys : k ∈ serverKeys ↔
    k = "api_url".toList ∨ k = "per_page".toList ∨ k = "user_agent".toList ∨
      k = "timeout_secs".toList := by
  simp only [serverKeys, List.mem_cons, List.not_mem_nil, or_false]

/-- **A member with an unknown key** changes none of the settings for the server. -/
theorem serverSetting_of_not_mem (h : k ∉ serverKeys) : serverSetting s (k, v) = .ok s := by
  rw [mem_serverKeys, not_or, not_or, not_or] at h
  obtain ⟨haddress, hpageSize, huserAgent, htimeout⟩ := h
  rw [serverSetting, if_neg haddress, if_neg hpageSize, if_neg huserAgent, if_neg htimeout]

/-- A member with an unknown key does not change the output key. -/
theorem outputSetting_of_not_mem (h : k ∉ outputKeys) : outputSetting key (k, v) = .ok key := by
  rw [outputKeys, List.mem_singleton] at h
  rw [outputSetting, if_neg h]

/-- **A member with an unknown key** changes none of the settings. -/
theorem setting_of_not_mem (h : k ∉ topKeys) : setting c (k, v) = .ok c := by
  rw [mem_topKeys, not_or, not_or] at h
  obtain ⟨hversion, hserver, houtput⟩ := h
  rw [setting, if_neg hversion, if_neg hserver, if_neg houtput]

/-- **A member changes the setting of its key at most.** -/
theorem serverSetting_frame (h : serverSetting s (k, v) = .ok s') :
    (k ≠ "api_url".toList → s'.address = s.address) ∧
    (k ≠ "per_page".toList → s'.pageSize = s.pageSize) ∧
    (k ≠ "user_agent".toList → s'.userAgent = s.userAgent) ∧
    (k ≠ "timeout_secs".toList → s'.timeout = s.timeout) := by
  by_cases hk : k ∈ serverKeys
  · rcases mem_serverKeys.mp hk with rfl | rfl | rfl | rfl
    · rw [serverSetting_address, map_eq_ok] at h
      obtain ⟨t, -, rfl⟩ := h
      exact ⟨fun hne => absurd rfl hne, fun _ => rfl, fun _ => rfl, fun _ => rfl⟩
    · rw [serverSetting_pageSize, map_eq_ok] at h
      obtain ⟨n, -, rfl⟩ := h
      exact ⟨fun _ => rfl, fun hne => absurd rfl hne, fun _ => rfl, fun _ => rfl⟩
    · rw [serverSetting_userAgent, map_eq_ok] at h
      obtain ⟨t, -, rfl⟩ := h
      exact ⟨fun _ => rfl, fun _ => rfl, fun hne => absurd rfl hne, fun _ => rfl⟩
    · rw [serverSetting_timeout, map_eq_ok] at h
      obtain ⟨n, -, rfl⟩ := h
      exact ⟨fun _ => rfl, fun _ => rfl, fun _ => rfl, fun hne => absurd rfl hne⟩
  · rw [serverSetting_of_not_mem hk] at h
    obtain rfl := Except.ok.inj h
    exact ⟨fun _ => rfl, fun _ => rfl, fun _ => rfl, fun _ => rfl⟩

/-- **A member changes the part of its key at most.** -/
theorem setting_frame (h : setting c (k, v) = .ok c') :
    (k ≠ "version".toList → c'.version = c.version) ∧
    (k ≠ "github".toList → c'.server = c.server) ∧
    (k ≠ "output".toList → c'.key = c.key) := by
  by_cases hk : k ∈ topKeys
  · rcases mem_topKeys.mp hk with rfl | rfl | rfl
    · rw [setting_version, map_eq_ok] at h
      obtain ⟨i, -, rfl⟩ := h
      exact ⟨fun hne => absurd rfl hne, fun _ => rfl, fun _ => rfl⟩
    · rw [setting_server, map_eq_ok] at h
      obtain ⟨s, -, rfl⟩ := h
      exact ⟨fun _ => rfl, fun hne => absurd rfl hne, fun _ => rfl⟩
    · rw [setting_key, map_eq_ok] at h
      obtain ⟨t, -, rfl⟩ := h
      exact ⟨fun _ => rfl, fun _ => rfl, fun hne => absurd rfl hne⟩
  · rw [setting_of_not_mem hk] at h
    obtain rfl := Except.ok.inj h
    exact ⟨fun _ => rfl, fun _ => rfl, fun _ => rfl⟩

theorem reads_address : Reads serverSetting "api_url".toList ServerSettings.address
    fun v => (string v).map some where
  given := by
    intro s s' v h
    rw [serverSetting_address, map_eq_ok] at h
    obtain ⟨t, ht, rfl⟩ := h
    rw [ht]
    rfl
  kept hne h := (serverSetting_frame h).1 hne

theorem reads_pageSize : Reads serverSetting "per_page".toList ServerSettings.pageSize
    (unsigned "u32".toList 4294967295) where
  given := by
    intro s s' v h
    rw [serverSetting_pageSize, map_eq_ok] at h
    obtain ⟨n, hn, rfl⟩ := h
    exact hn
  kept hne h := (serverSetting_frame h).2.1 hne

theorem reads_userAgent : Reads serverSetting "user_agent".toList ServerSettings.userAgent
    string where
  given := by
    intro s s' v h
    rw [serverSetting_userAgent, map_eq_ok] at h
    obtain ⟨t, ht, rfl⟩ := h
    exact ht
  kept hne h := (serverSetting_frame h).2.2.1 hne

theorem reads_timeout : Reads serverSetting "timeout_secs".toList ServerSettings.timeout
    (unsigned "u64".toList 18446744073709551615) where
  given := by
    intro s s' v h
    rw [serverSetting_timeout, map_eq_ok] at h
    obtain ⟨n, hn, rfl⟩ := h
    exact hn
  kept hne h := (serverSetting_frame h).2.2.2 hne

theorem reads_outputKey : Reads outputSetting "key".toList id string where
  given h := h
  kept := by
    intro key key' k v hne h
    rw [outputSetting, if_neg hne] at h
    exact (Except.ok.inj h).symm

theorem reads_version : Reads setting "version".toList Config.version (wholeNumber "i64".toList) where
  given := by
    intro c c' v h
    rw [setting_version, map_eq_ok] at h
    obtain ⟨i, hi, rfl⟩ := h
    exact hi
  kept hne h := (setting_frame h).1 hne

theorem reads_server : Reads setting "github".toList Config.server serverSettings where
  given := by
    intro c c' v h
    rw [setting_server, map_eq_ok] at h
    obtain ⟨s, hs, rfl⟩ := h
    exact hs
  kept hne h := (setting_frame h).2.1 hne

theorem reads_key : Reads setting "output".toList Config.key outputKey where
  given := by
    intro c c' v h
    rw [setting_key, map_eq_ok] at h
    obtain ⟨t, ht, rfl⟩ := h
    exact ht
  kept hne h := (setting_frame h).2.2 hne

end Steps

/-! ## (3) Whole tables -/

section Tables

variable {s s' : ServerSettings} {c : Config} {key : Text} {inner members : Members} {origin : Toml.Origin}
  {given : Text → Option Value}

/-- What settles a setting, if it is given. -/
theorem Settles.of_given {β : Type} {read : Value → Except Misfit β} {default b : β} {v : Value}
    {o : Option Value} (h : Settles read default o b) (ho : o = some v) : read v = .ok b := by
  rw [ho] at h
  exact h

/-- A setting is settled in one way. -/
theorem Settles.unique {β : Type} {read : Value → Except Misfit β} {default b b' : β}
    {o : Option Value} (h : Settles read default o b) (h' : Settles read default o b') : b = b' :=
  Except.ok.inj (h.symm.trans h')

/-- **The settings for the server are settled** by what is given for their keys. -/
structure ServerSettled (given : Text → Option Value) (s : ServerSettings) : Prop where
  address : Settles (fun v => (string v).map some) none (given "api_url".toList) s.address
  pageSize : Settles (unsigned "u32".toList 4294967295) maxPageSize (given "per_page".toList) s.pageSize
  userAgent : Settles string "pathgate".toList (given "user_agent".toList) s.userAgent
  timeout : Settles (unsigned "u64".toList 18446744073709551615) 30 (given "timeout_secs".toList)
    s.timeout

/-- The settings for the server are settled in one way. -/
theorem ServerSettled.unique (h : ServerSettled given s) (h' : ServerSettled given s') : s = s' := by
  have haddress := h.address.unique h'.address
  have hpageSize := h.pageSize.unique h'.pageSize
  have huserAgent := h.userAgent.unique h'.userAgent
  have htimeout := h.timeout.unique h'.timeout
  cases s
  cases s'
  rw [ServerSettings.mk.injEq]
  exact ⟨haddress, hpageSize, huserAgent, htimeout⟩

/-- **A table gives settings for the server** exactly if each is settled by the member of its key. -/
theorem serverSettings_eq_ok (hinner : inner.IsSound) :
    serverSettings (.table origin inner) = .ok s ↔ ServerSettled (inner.lookup ·) s := by
  have hsettled : ∀ {s}, inner.foldlM serverSetting .default = .ok s →
      ServerSettled (inner.lookup ·) s := fun h =>
    ⟨reads_address.foldlM hinner.nodup h, reads_pageSize.foldlM hinner.nodup h,
      reads_userAgent.foldlM hinner.nodup h, reads_timeout.foldlM hinner.nodup h⟩
  constructor
  · exact hsettled
  · intro h
    -- every member can be read: those of known keys are the ones that settle the settings
    have hfits : ∀ m ∈ inner, ∀ s, ∃ s', serverSetting s m = .ok s' := by
      rintro ⟨k, v⟩ hm s₀
      have hlookup := hinner.lookup_eq_some.mpr hm
      by_cases hk : k ∈ serverKeys
      · rcases mem_serverKeys.mp hk with rfl | rfl | rfl | rfl
        · obtain ⟨t, ht, -⟩ := map_eq_ok.mp (h.address.of_given hlookup)
          exact ⟨_, by rw [serverSetting_address, ht]; rfl⟩
        · exact ⟨_, by rw [serverSetting_pageSize, h.pageSize.of_given hlookup]; rfl⟩
        · exact ⟨_, by rw [serverSetting_userAgent, h.userAgent.of_given hlookup]; rfl⟩
        · exact ⟨_, by rw [serverSetting_timeout, h.timeout.of_given hlookup]; rfl⟩
      · exact ⟨s₀, serverSetting_of_not_mem hk⟩
    obtain ⟨s', hs'⟩ := exists_foldlM hfits .default
    rw [h.unique (hsettled hs')]
    exact hs'

/-- **A table gives an output key** exactly if it is settled by the member of its key. -/
theorem outputKey_eq_ok (hinner : inner.IsSound) :
    outputKey (.table origin inner) = .ok key ↔
      Settles string Action.defaultKey (inner.lookup "key".toList) key := by
  have hsettled : ∀ {key}, inner.foldlM outputSetting Action.defaultKey = .ok key →
      Settles string Action.defaultKey (inner.lookup "key".toList) key := fun h =>
    reads_outputKey.foldlM hinner.nodup h
  constructor
  · exact hsettled
  · intro h
    have hfits : ∀ m ∈ inner, ∀ key, ∃ key', outputSetting key m = .ok key' := by
      rintro ⟨k, v⟩ hm key₀
      by_cases hk : k ∈ outputKeys
      · obtain rfl := List.mem_singleton.mp hk
        exact ⟨key, h.of_given (hinner.lookup_eq_some.mpr hm)⟩
      · exact ⟨key₀, outputSetting_of_not_mem hk⟩
    obtain ⟨key', hkey'⟩ := exists_foldlM hfits Action.defaultKey
    rw [h.unique (hsettled hkey')]
    exact hkey'

end Tables

/-! ## (4) Whole configurations -/

/-- The value that is given for a key of a section that is a table. -/
def field? (part key : Text) (members : Members) : Option Value :=
  match members.lookup part with
  | some (.table _ inner) => List.lookup key inner
  | _ => none

/-- The sections of a configuration, with the keys that are known in them. -/
def sections : List (Text × List Text) :=
  [("github".toList, serverKeys), ("output".toList, outputKeys)]

/-- There are two sections. -/
theorem mem_sections {part : Text} {known : List Text} : (part, known) ∈ sections ↔
    (part = "github".toList ∧ known = serverKeys) ∨
      (part = "output".toList ∧ known = outputKeys) := by
  simp only [sections, List.mem_cons, List.not_mem_nil, or_false, Prod.mk.injEq]

/-- **The sections that are given are tables.** -/
def HasTables (members : Members) : Prop :=
  ∀ part ∈ sections, ∀ v, members.lookup part.1 = some v → ∃ origin inner, v = .table origin inner

variable {members : Members} {c c' : Config} {part key : Text} {v : Value}

theorem field?_of_none (h : members.lookup part = none) : field? part key members = none := by
  rw [field?, h]

theorem field?_of_table {origin : Toml.Origin} {inner : Members}
    (h : members.lookup part = some (.table origin inner)) :
    field? part key members = inner.lookup key := by
  rw [field?, h]

/-- The value of a field is sound in a sound table. -/
theorem isSound_of_field (hsound : members.IsSound) (h : field? part key members = some v) :
    v.IsSound := by
  unfold field? at h
  split at h
  · rename_i origin inner htable
    exact (Toml.Value.isSound_table.mp (hsound.of_lookup htable)).of_lookup h
  · exact absurd h (by simp)

/-- **A configuration is settled** by the fields of a table. -/
structure Settled (members : Members) (c : Config) : Prop where
  version : Settles (wholeNumber "i64".toList) supportedVersion (members.lookup "version".toList)
    c.version
  server : ServerSettled (field? "github".toList · members) c.server
  key : Settles string Action.defaultKey (field? "output".toList "key".toList members) c.key

/-- A configuration is settled in one way. -/
theorem Settled.unique (h : Settled members c) (h' : Settled members c') : c = c' := by
  have hversion := h.version.unique h'.version
  have hserver := h.server.unique h'.server
  have hkey := h.key.unique h'.key
  cases c
  cases c'
  rw [Config.mk.injEq]
  exact ⟨hversion, hserver, hkey⟩

/-- The settings for the server are settled by the fields of their section. -/
theorem settles_server (hsound : members.IsSound) (htables : HasTables members) {s : ServerSettings} :
    Settles serverSettings .default (members.lookup "github".toList) s ↔
      ServerSettled (field? "github".toList · members) s := by
  cases hsection : members.lookup "github".toList with
  | none =>
    have hnone : (field? "github".toList · members) = fun _ => none :=
      funext fun key => field?_of_none hsection
    rw [hnone]
    constructor
    · intro h
      obtain rfl : ServerSettings.default = s := Except.ok.inj h
      exact ⟨rfl, rfl, rfl, rfl⟩
    · intro h
      have hdefault : ServerSettled (fun _ => none) .default := ⟨rfl, rfl, rfl, rfl⟩
      rw [h.unique hdefault]
      rfl
  | some v =>
    have hmem : ("github".toList, serverKeys) ∈ sections := mem_sections.mpr (.inl ⟨rfl, rfl⟩)
    obtain ⟨origin, inner, rfl⟩ := htables _ hmem v hsection
    have hfields : (field? "github".toList · members) = (inner.lookup ·) :=
      funext fun key => field?_of_table hsection
    rw [hfields]
    exact serverSettings_eq_ok (Toml.Value.isSound_table.mp (hsound.of_lookup hsection))

/-- The output key is settled by the field of its section. -/
theorem settles_key (hsound : members.IsSound) (htables : HasTables members) :
    Settles outputKey Action.defaultKey (members.lookup "output".toList) key ↔
      Settles string Action.defaultKey (field? "output".toList "key".toList members) key := by
  cases hsection : members.lookup "output".toList with
  | none =>
    rw [field?_of_none hsection]
    rfl
  | some v =>
    have hmem : ("output".toList, outputKeys) ∈ sections :=
      mem_sections.mpr (.inr ⟨rfl, rfl⟩)
    obtain ⟨origin, inner, rfl⟩ := htables _ hmem v hsection
    rw [field?_of_table hsection]
    exact outputKey_eq_ok (Toml.Value.isSound_table.mp (hsound.of_lookup hsection))

/-- **A table with whole sections gives a configuration** exactly if its fields settle it. -/
theorem ofMembers_eq_ok (hsound : members.IsSound) (htables : HasTables members) :
    ofMembers members = .ok c ↔ Settled members c := by
  have hsettled : ∀ {c}, members.foldlM setting default = .ok c → Settled members c := fun h =>
    ⟨reads_version.foldlM hsound.nodup h,
      (settles_server hsound htables).mp (reads_server.foldlM hsound.nodup h),
      (settles_key hsound htables).mp (reads_key.foldlM hsound.nodup h)⟩
  have hfold : ofMembers members = .ok c ↔ members.foldlM setting default = .ok c := by
    rw [ofMembers]
    cases members.foldlM setting default <;> simp [Except.mapError]
  rw [hfold]
  constructor
  · exact hsettled
  · intro h
    -- every member can be read, so the table can, and there is only one configuration that it settles
    have hfits : ∀ m ∈ members, ∀ c, ∃ c', setting c m = .ok c' := by
      rintro ⟨k, v⟩ hm c₀
      have hlookup := hsound.lookup_eq_some.mpr hm
      by_cases hk : k ∈ topKeys
      · rcases mem_topKeys.mp hk with rfl | rfl | rfl
        · exact ⟨_, by rw [setting_version, h.version.of_given hlookup]; rfl⟩
        · have hserver := (settles_server hsound htables).mpr h.server
          exact ⟨_, by rw [setting_server, hserver.of_given hlookup]; rfl⟩
        · have hkey := (settles_key hsound htables).mpr h.key
          exact ⟨_, by rw [setting_key, hkey.of_given hlookup]; rfl⟩
      · exact ⟨c₀, setting_of_not_mem hk⟩
    obtain ⟨c', hc'⟩ := exists_foldlM hfits default
    rw [h.unique (hsettled hc')]
    exact hc'

end ChangeGate.Config
