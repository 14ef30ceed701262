import ChangeGate.Proofs.Config.Reading
import ChangeGate.Proofs.Text.Order

/-! # Unknown keys

A key is unknown exactly if the reader passes over it, whatever its value is (`passes_setting`,
`passes_serverSetting`, `passes_outputSetting`). Which keys of a table are listed as unknown is said by
`mem_unknownKeys_iff`; a further one changes neither the configuration nor the fault of a document, and adds
its own name to the list (**`unknownKeys_inert`**). -/

namespace ChangeGate.Config

open Toml (Members Value Origin)

/-! ## (1) Keys that are passed over -/

/-- **The reader of settings passes over a key**: no member with this key changes anything, or is refused. -/
def Passes {α : Type} (setting : α → Text × Value → Except Misfit α) (key : Text) : Prop :=
  ∀ s v, setting s (key, v) = .ok s

/-- **The known keys of a configuration are those that are read.** -/
theorem passes_setting {key : Text} : Passes setting key ↔ key ∉ topKeys := by
  constructor
  · intro h hkey
    -- no known key may be given a truth value
    have hbool := h default (.bool true)
    rcases mem_topKeys.mp hkey with rfl | rfl | rfl
    · rw [setting_version] at hbool
      exact absurd hbool (by simp [wholeNumber, Except.map])
    · rw [setting_server] at hbool
      exact absurd hbool (by simp [serverSettings, record, Except.map])
    · rw [setting_key] at hbool
      exact absurd hbool (by simp [outputKey, record, Except.map])
  · intro h c v
    exact setting_of_not_mem h

/-- **The known keys of the settings for the server are those that are read.** -/
theorem passes_serverSetting {key : Text} : Passes serverSetting key ↔ key ∉ serverKeys := by
  constructor
  · intro h hkey
    have hbool := h .default (.bool true)
    rcases mem_serverKeys.mp hkey with rfl | rfl | rfl | rfl
    · rw [serverSetting_address] at hbool
      exact absurd hbool (by simp [string, Except.map])
    · rw [serverSetting_pageSize] at hbool
      exact absurd hbool (by simp [unsigned, wholeNumber, Except.map])
    · rw [serverSetting_userAgent] at hbool
      exact absurd hbool (by simp [string, Except.map])
    · rw [serverSetting_timeout] at hbool
      exact absurd hbool (by simp [unsigned, wholeNumber, Except.map])
  · intro h s v
    exact serverSetting_of_not_mem h

/-- **The known key of the settings for the output is the one that is read.** -/
theorem passes_outputSetting {key : Text} : Passes outputSetting key ↔ key ∉ outputKeys := by
  constructor
  · intro h hkey
    have hbool := h [] (.bool true)
    obtain rfl := List.mem_singleton.mp hkey
    rw [outputSetting_key] at hbool
    exact absurd hbool (by simp [string])
  · intro h s v
    exact outputSetting_of_not_mem h

/-! ## (2) Which keys are listed -/

section Listing

variable {members front back : Members} {m : Text × Value} {key part k : Text} {known : List Text}
  {v : Value}

/-- The known keys are the one of the version and those of the sections. -/
theorem mem_topKeys_iff :
    key ∈ topKeys ↔ key = "version".toList ∨ ∃ known, (key, known) ∈ sections := by
  rw [mem_topKeys]
  constructor
  · rintro (hversion | hserver | houtput)
    · exact .inl hversion
    · exact .inr ⟨serverKeys, mem_sections.mpr (.inl ⟨hserver, rfl⟩)⟩
    · exact .inr ⟨outputKeys, mem_sections.mpr (.inr ⟨houtput, rfl⟩)⟩
  · rintro (hversion | ⟨known, hsection⟩)
    · exact .inl hversion
    · rcases mem_sections.mp hsection with ⟨hserver, -⟩ | ⟨houtput, -⟩
      · exact .inr (.inl hserver)
      · exact .inr (.inr houtput)

/-- The version is no section. -/
theorem version_not_mem_sections : ("version".toList, known) ∉ sections := by
  intro h
  rcases mem_sections.mp h with ⟨hkey, -⟩ | ⟨hkey, -⟩
  · exact absurd hkey (by decide)
  · exact absurd hkey (by decide)

/-- A member with an unknown key is listed under this key, whatever its value holds. -/
theorem unknownIn_of_not_mem (h : key ∉ topKeys) : unknownIn (key, v) = [key] := by
  have hcontains : topKeys.contains key = false := by simpa using h
  rw [unknownIn, hcontains]
  rfl

/-- The version has no unknown keys. -/
theorem unknownIn_version : unknownIn ("version".toList, v) = [] := rfl

/-- A section that is a table has the keys in it that are unknown there. -/
theorem unknownIn_table {origin : Origin} {inner : Members} (h : (part, known) ∈ sections) :
    unknownIn (part, .table origin inner) =
      (inner.map fun m : Text × Value => m.1).filterMap fun key =>
        if known.contains key then none else some (part ++ '.' :: key) := by
  rcases mem_sections.mp h with ⟨rfl, rfl⟩ | ⟨rfl, rfl⟩ <;> rfl

/-- A section that is no table has no unknown keys. -/
theorem unknownIn_of_no_table (h : (part, known) ∈ sections)
    (hv : ∀ origin inner, v ≠ .table origin inner) : unknownIn (part, v) = [] := by
  cases v with
  | table origin inner => exact absurd rfl (hv origin inner)
  | _ => rcases mem_sections.mp h with ⟨rfl, rfl⟩ | ⟨rfl, rfl⟩ <;> rfl

/-- **A section that is a table is listed under its unknown keys**; one that is no table is not listed. -/
theorem mem_unknownIn_section (h : (part, known) ∈ sections) : k ∈ unknownIn (part, v) ↔
    ∃ origin inner key, v = .table origin inner ∧ key ∈ inner.map Prod.fst ∧ key ∉ known ∧
      k = part ++ '.' :: key := by
  constructor
  · intro hk
    by_cases htable : ∃ origin inner, v = .table origin inner
    · obtain ⟨origin, inner, rfl⟩ := htable
      rw [unknownIn_table h, List.mem_filterMap] at hk
      obtain ⟨key, hkey, hk⟩ := hk
      split at hk
      · exact absurd hk (by simp)
      · rename_i hunknown
        exact ⟨origin, inner, key, rfl, hkey, by simpa using hunknown, (Option.some.inj hk).symm⟩
    · have hnone := unknownIn_of_no_table h fun origin inner hv => htable ⟨origin, inner, hv⟩
      rw [hnone] at hk
      exact absurd hk (by simp)
  · rintro ⟨origin, inner, key, rfl, hkey, hunknown, rfl⟩
    rw [unknownIn_table h, List.mem_filterMap]
    exact ⟨key, hkey, by rw [if_neg (by simpa using hunknown)]⟩

/-- **Under what a member is listed**: its key if it is unknown, or the unknown keys below it if it is a
section and a table. -/
theorem mem_unknownIn : k ∈ unknownIn (key, v) ↔
    (key ∉ topKeys ∧ k = key) ∨
    ∃ known origin inner below, (key, known) ∈ sections ∧ v = .table origin inner ∧
      below ∈ inner.map Prod.fst ∧ below ∉ known ∧ k = key ++ '.' :: below := by
  by_cases htop : key ∈ topKeys
  · rcases mem_topKeys_iff.mp htop with rfl | ⟨known, hsection⟩
    · rw [unknownIn_version]
      simp only [List.not_mem_nil, htop, not_true, false_and, version_not_mem_sections, exists_false,
        or_self]
    · constructor
      · intro hk
        obtain ⟨origin, inner, below, h⟩ := (mem_unknownIn_section hsection).mp hk
        exact .inr ⟨known, origin, inner, below, hsection, h⟩
      · rintro (⟨hnot, -⟩ | ⟨known', origin, inner, below, hsection', h⟩)
        · exact absurd htop hnot
        · exact (mem_unknownIn_section hsection').mpr ⟨origin, inner, below, h⟩
  · rw [unknownIn_of_not_mem htop, List.mem_singleton]
    constructor
    · intro hk
      exact .inl ⟨htop, hk⟩
    · rintro (⟨-, hk⟩ | ⟨known, -, -, -, hsection, -⟩)
      · exact hk
      · exact absurd (mem_topKeys_iff.mpr (.inr ⟨known, hsection⟩)) htop

/-- **The unknown keys of a table**: those of its keys that are unknown, and behind the key of a section
those that are unknown in it, if it is a table. -/
theorem mem_unknownKeys_iff : k ∈ unknownKeys members ↔
    (k ∈ members.map Prod.fst ∧ k ∉ topKeys) ∨
    ∃ part known origin inner key, (part, known) ∈ sections ∧
      (part, .table origin inner) ∈ members ∧ key ∈ inner.map Prod.fst ∧ key ∉ known ∧
      k = part ++ '.' :: key := by
  rw [mem_unknownKeys]
  constructor
  · rintro ⟨⟨key, v⟩, hm, hk⟩
    rcases mem_unknownIn.mp hk with ⟨hkey, rfl⟩ | ⟨known, origin, inner, below, hsection, rfl, h⟩
    · exact .inl ⟨List.mem_map_of_mem hm, hkey⟩
    · exact .inr ⟨key, known, origin, inner, below, hsection, hm, h⟩
  · rintro (⟨hk, htop⟩ | ⟨part, known, origin, inner, key, hsection, hm, h⟩)
    · obtain ⟨⟨key, v⟩, hm, rfl⟩ := List.mem_map.mp hk
      exact ⟨(key, v), hm, mem_unknownIn.mpr (.inl ⟨htop, rfl⟩)⟩
    · exact ⟨_, hm, mem_unknownIn.mpr (.inr ⟨known, origin, inner, key, hsection, rfl, h⟩)⟩

/-- The unknown keys of a table, one member apart. -/
theorem mem_unknownKeys_at : k ∈ unknownKeys (front ++ m :: back) ↔
    k ∈ unknownIn m ∨ k ∈ unknownKeys (front ++ back) := by
  simp only [unknownKeys, Text.mem_ascending, List.flatMap_append, List.flatMap_cons, List.mem_append]
  exact or_left_comm

end Listing

/-! ## (3) A further key -/

/-- **A key is put into a table**, at any place if it is new, or else with a value in place of the one it has. -/
inductive Puts (key : Text) (v : Value) : Members → Members → Prop
  | new (front back : Members) : Puts key v (front ++ back) (front ++ (key, v) :: back)
  | anew (front back : Members) (w : Value) :
    Puts key v (front ++ (key, w) :: back) (front ++ (key, v) :: back)

/-- **An unknown key is put into a configuration**, at the top or into a section that is a table; it is listed
as `name`. -/
inductive PutsUnknown : Text → Members → Members → Prop
  | top {key : Text} {v : Value} {members members' : Members} (hkey : key ∉ topKeys)
    (h : Puts key v members members') : PutsUnknown key members members'
  | inside {part key : Text} {known : List Text} {v : Value} {inner inner' : Members}
    (front back : Members) (origin origin' : Origin) (hpart : (part, known) ∈ sections)
    (hkey : key ∉ known) (h : Puts key v inner inner') :
    PutsUnknown (part ++ '.' :: key) (front ++ (part, .table origin inner) :: back)
      (front ++ (part, .table origin' inner') :: back)

section Further

variable {α : Type} {read : α → Text × Value → Except Misfit α} {members members' : Members}
  {inner inner' front back : Members} {m m' : Text × Value} {origin origin' : Origin}
  {key part k name : Text} {known : List Text} {v : Value}

/-- The keys of a table with a further one. -/
theorem Puts.mem_keys (h : Puts key v members members') :
    k ∈ members'.map Prod.fst ↔ k = key ∨ k ∈ members.map Prod.fst := by
  cases h with
  | new front back =>
    simp only [List.map_append, List.map_cons, List.mem_append, List.mem_cons]
    exact or_left_comm
  | anew front back w =>
    have hkeys : (front ++ (key, v) :: back).map Prod.fst =
        (front ++ (key, w) :: back).map Prod.fst := by simp only [List.map_append, List.map_cons]
    rw [hkeys]
    constructor
    · exact .inr
    · rintro (rfl | hk)
      · simp
      · exact hk

/-- The values of the other keys stay. -/
theorem Puts.lookup_of_ne (h : Puts key v members members') (hne : k ≠ key) :
    members'.lookup k = members.lookup k := by
  have hskip : (k == key) = false := by simpa using hne
  cases h with
  | new front back => rw [List.lookup_append, List.lookup_append, List.lookup_cons, hskip]
  | anew front back w =>
    rw [List.lookup_append, List.lookup_append, List.lookup_cons, List.lookup_cons, hskip]

/-- A member may be exchanged for one that is read alike. -/
theorem foldlM_exchange (h : ∀ s, read s m' = read s m) (s : α) :
    (front ++ m' :: back).foldlM read s = (front ++ m :: back).foldlM read s := by
  rw [List.foldlM_append, List.foldlM_append]
  simp only [List.foldlM_cons, h]

/-- **A key that is passed over changes nothing**, at whatever place it is put. -/
theorem Puts.foldlM_eq (h : Puts key v members members') (hpass : Passes read key) (s : α) :
    members'.foldlM read s = members.foldlM read s := by
  cases h with
  | new front back =>
    have hskip : ∀ s, (read s (key, v) >>= fun s' => back.foldlM read s') = back.foldlM read s := by
      intro s
      rw [hpass s v]
      rfl
    rw [List.foldlM_append, List.foldlM_append]
    simp only [List.foldlM_cons, hskip]
  | anew front back w => exact foldlM_exchange (fun s => (hpass s v).trans (hpass s w).symm) s

/-- A section with a further key that is unknown in it is read as before. -/
theorem setting_inside (hpart : (part, known) ∈ sections) (hkey : key ∉ known)
    (h : Puts key v inner inner') (c : Config) :
    setting c (part, .table origin' inner') = setting c (part, .table origin inner) := by
  rcases mem_sections.mp hpart with ⟨rfl, rfl⟩ | ⟨rfl, rfl⟩
  · have hserver : serverSettings (.table origin' inner') = serverSettings (.table origin inner) :=
      h.foldlM_eq (passes_serverSetting.mpr hkey) _
    rw [setting_server, setting_server, hserver]
  · have houtput : outputKey (.table origin' inner') = outputKey (.table origin inner) :=
      h.foldlM_eq (passes_outputSetting.mpr hkey) _
    rw [setting_key, setting_key, houtput]

/-- An unknown key is no matter of the version. -/
theorem PutsUnknown.version?_eq (h : PutsUnknown name members members') :
    version? members' = version? members := by
  have hlookup : members'.lookup "version".toList = members.lookup "version".toList := by
    cases h with
    | top hkey h =>
      apply h.lookup_of_ne
      rintro rfl
      exact hkey (mem_topKeys.mpr (.inl rfl))
    | @inside part _ _ _ inner inner' front back origin origin' hpart _ _ =>
      -- the section takes its own place, and its key is another one
      have hanew : Puts part (.table origin' inner') (front ++ (part, .table origin inner) :: back)
          (front ++ (part, .table origin' inner') :: back) := .anew front back _
      apply hanew.lookup_of_ne
      rintro rfl
      exact version_not_mem_sections hpart
  rw [version?, version?, hlookup]

/-- **An unknown key does not change the settings**, or the first one that does not fit. -/
theorem PutsUnknown.ofMembers_eq (h : PutsUnknown name members members') :
    ofMembers members' = ofMembers members := by
  have hfold : members'.foldlM setting default = members.foldlM setting default := by
    cases h with
    | top hkey h => exact h.foldlM_eq (passes_setting.mpr hkey) default
    | inside front back origin origin' hpart hkey h =>
      exact foldlM_exchange (setting_inside hpart hkey h) default
  rw [ofMembers, ofMembers, hfold]

/-- **An unknown key changes neither the configuration nor the fault** that a table gives. -/
theorem PutsUnknown.ofTable_eq (h : PutsUnknown name members members') :
    ofTable members' = ofTable members := by
  rw [ofTable, ofTable, h.version?_eq, h.ofMembers_eq]

/-- The unknown keys of a table with a further one. -/
theorem PutsUnknown.mem_unknownKeys (h : PutsUnknown name members members') :
    k ∈ unknownKeys members' ↔ k = name ∨ k ∈ unknownKeys members := by
  cases h with
  | top hkey h =>
    cases h with
    | new front back => rw [mem_unknownKeys_at, unknownIn_of_not_mem hkey, List.mem_singleton]
    | anew front back w =>
      rw [mem_unknownKeys_at, mem_unknownKeys_at, unknownIn_of_not_mem hkey,
        unknownIn_of_not_mem hkey, List.mem_singleton, ← or_assoc, or_self]
  | @inside part key known v inner inner' front back origin origin' hpart hkey h =>
    have hinside : k ∈ unknownIn (part, .table origin' inner') ↔
        k = part ++ '.' :: key ∨ k ∈ unknownIn (part, .table origin inner) := by
      rw [mem_unknownIn_section hpart, mem_unknownIn_section hpart]
      constructor
      · rintro ⟨_, _, below, heq, hbelow, hunknown, rfl⟩
        obtain ⟨-, rfl⟩ := Value.table.inj heq
        rcases h.mem_keys.mp hbelow with rfl | hbelow
        · exact .inl rfl
        · exact .inr ⟨origin, inner, below, rfl, hbelow, hunknown, rfl⟩
      · rintro (rfl | ⟨_, _, below, heq, hbelow, hunknown, rfl⟩)
        · exact ⟨origin', inner', key, rfl, h.mem_keys.mpr (.inl rfl), hkey, rfl⟩
        · obtain ⟨-, rfl⟩ := Value.table.inj heq
          exact ⟨origin', inner', below, rfl, h.mem_keys.mpr (.inr hbelow), hunknown, rfl⟩
    rw [mem_unknownKeys_at, mem_unknownKeys_at, hinside, or_assoc]

/-- **An unknown key adds its own name to the unknown keys**, and no other one: both lists ascend and hold the
same names. -/
theorem PutsUnknown.unknownKeys_eq (h : PutsUnknown name members members') :
    unknownKeys members' = Text.place name (unknownKeys members) := by
  apply Text.eq_of_ascending
  · exact Text.pairwise_ascending _
  · exact Text.pairwise_place (Text.pairwise_ascending _) name
  · intro k
    rw [h.mem_unknownKeys, Text.mem_place]

end Further

/-! ## (4) Whole documents -/

/-- **Unknown keys are listed and passed over.** The unknown keys of a table are those of its keys that are
unknown and those that are unknown in a section, if it is a table. A document with a further unknown key gives
the same configuration or the same fault, and its unknown keys are those of the document without it and the
name of the further one. -/
theorem unknownKeys_inert :
    (∀ members k, k ∈ unknownKeys members ↔
      (k ∈ members.map Prod.fst ∧ k ∉ topKeys) ∨
      ∃ part known origin inner key, (part, known) ∈ sections ∧
        (part, .table origin inner) ∈ members ∧ key ∈ inner.map Prod.fst ∧ key ∉ known ∧
        k = part ++ '.' :: key) ∧
    ∀ t t' members members' name, Toml.readDocument? t = some members →
      Toml.readDocument? t' = some members' → PutsUnknown name members members' →
      ofText t' = ofText t ∧ unknownKeysOf t' = Text.place name (unknownKeysOf t) := by
  constructor
  · intro members k
    exact mem_unknownKeys_iff
  · intro t t' members members' name hread hread' hputs
    rw [ofText, ofText, unknownKeysOf, unknownKeysOf, hread, hread']
    exact ⟨hputs.ofTable_eq, hputs.unknownKeys_eq⟩

/-- A document that is refused, since no page has no files. -/
def emptyPagesText : Text := "version = 1\n[github]\nper_page = 0\n[extra]\n".toList

/-- The same document with an unknown key in the section of the server. -/
def retriesText : Text := "version = 1\n[github]\nretries = [3]\nper_page = 0\n[extra]\n".toList

/-- It is refused for the same reason, and the key is listed behind the other one that is unknown. -/
theorem unknownKeys_inert_retries :
    ofText emptyPagesText = .error (.pageSize 0) ∧
    unknownKeysOf emptyPagesText = ["extra".toList] ∧
    ofText retriesText = .error (.pageSize 0) ∧
    unknownKeysOf retriesText = ["extra".toList, "github.retries".toList] := by
  have hread : Toml.readDocument? emptyPagesText =
      some [("version".toList, .integer 1),
        ("github".toList, .table .header [("per_page".toList, .integer 0)]),
        ("extra".toList, .table .header [])] := by decide +kernel
  have hread' : Toml.readDocument? retriesText =
      some [("version".toList, .integer 1),
        ("github".toList, .table .header
          [("retries".toList, .list false [.integer 3]), ("per_page".toList, .integer 0)]),
        ("extra".toList, .table .header [])] := by decide +kernel
  have hserver : ("github".toList, serverKeys) ∈ sections :=
    mem_sections.mpr (.inl ⟨rfl, rfl⟩)
  have hunknown : "retries".toList ∉ serverKeys := by decide
  have hinner : Puts "retries".toList (.list false [.integer 3])
      [("per_page".toList, .integer 0)]
      [("retries".toList, .list false [.integer 3]), ("per_page".toList, .integer 0)] := .new [] _
  have hputs := PutsUnknown.inside [("version".toList, .integer 1)]
    [("extra".toList, .table .header [])] .header .header hserver hunknown hinner
  obtain ⟨hsame, hlisted⟩ := unknownKeys_inert.2 _ _ _ _ _ hread hread' hputs
  have hrefused : ofText emptyPagesText = .error (.pageSize 0) := by
    rw [ofText, hread]
    rfl
  have hextra : unknownKeysOf emptyPagesText = ["extra".toList] := by
    rw [unknownKeysOf, hread]
    rfl
  refine ⟨hrefused, hextra, hsame.trans hrefused, ?_⟩
  rw [hlisted, hextra]
  rfl

end ChangeGate.Config
