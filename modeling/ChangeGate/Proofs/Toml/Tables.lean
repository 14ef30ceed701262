import ChangeGate.Toml.Document
import Mathlib.Data.List.Nodup

/-! # The tables of a document

A table that is read from a text gives each of its keys once, and so do all the tables inside of it; the
whole numbers have 64 bits. **Value.IsSound** says so of a value, and **Members.IsSound** of the members of
a table. Each way in which a table can grow keeps its members sound (**`Keeps`**), and every value that is
written out is sound (**`readsSound`**), so a document is (**`isSound_of_readDocument`**): what is looked
up in it by key is all that the document says about the key (**`Members.IsSound.lookup_eq_some`**). -/

namespace ChangeGate.Toml

/-! ## (1) Sound values -/

/-- A whole number has 64 bits. -/
def IsWord (i : Int) : Prop := -9223372036854775808 ≤ i ∧ i ≤ 9223372036854775807

/-- **A sound value**: its whole numbers have 64 bits, and none of its tables gives a key twice. -/
inductive Value.IsSound : Value → Prop where
  | bool (b : Bool) : IsSound (.bool b)
  | integer {i : Int} : IsWord i → IsSound (.integer i)
  | float (x : Binary64) : IsSound (.float x)
  | string (t : Text) : IsSound (.string t)
  | date : IsSound .date
  | list {grows : Bool} {elements : List Value} :
      (∀ v ∈ elements, IsSound v) → IsSound (.list grows elements)
  | table {origin : Origin} {members : List (Text × Value)} : (members.map Prod.fst).Nodup →
      (∀ m ∈ members, IsSound m.2) → IsSound (.table origin members)

/-- **Sound members** of a table. -/
structure Members.IsSound (ms : Members) : Prop where
  /-- No key is given twice. -/
  nodup : (ms.map Prod.fst).Nodup
  /-- The values are sound. -/
  values : ∀ m ∈ ms, m.2.IsSound

/-- A table is sound exactly if its members are. -/
theorem Value.isSound_table {origin : Origin} {ms : Members} :
    (Value.table origin ms).IsSound ↔ ms.IsSound := by
  constructor
  · intro h
    cases h with
    | table hnodup hvalues => exact ⟨hnodup, hvalues⟩
  · intro h
    exact .table h.nodup h.values

namespace Members

/-- No members are sound. -/
theorem isSound_nil : IsSound [] := ⟨List.nodup_nil, by simp⟩

variable {ms ms' : Members} {key : Text} {v : Value}

/-- **What is looked up is what is there**, if the members are sound. -/
theorem IsSound.lookup_eq_some (h : ms.IsSound) : ms.lookup key = some v ↔ (key, v) ∈ ms := by
  have hnodup := h.nodup
  clear h
  induction ms with
  | nil => simp
  | cons m ms ih =>
    obtain ⟨k, w⟩ := m
    rw [List.map_cons, List.nodup_cons] at hnodup
    obtain ⟨hfresh, hrest⟩ := hnodup
    rw [List.lookup_cons, List.mem_cons]
    by_cases hkey : key = k
    · subst hkey
      -- the key is not given again behind this member
      have hnone : (key, v) ∉ ms := fun hmem => hfresh (List.mem_map.mpr ⟨_, hmem, rfl⟩)
      simp [hnone, eq_comm]
    · have hbeq : (key == k) = false := by simpa using hkey
      have hother : (key, v) ≠ (k, w) := fun heq => hkey (Prod.mk.inj heq).1
      rw [hbeq]
      exact (ih hrest).trans (or_iff_right hother).symm

/-- Nothing is looked up exactly if the key is not given. -/
theorem lookup_eq_none : ms.lookup key = none ↔ key ∉ ms.map Prod.fst := by
  rw [List.lookup_eq_none_iff, List.mem_map]
  constructor
  · rintro h ⟨m, hm, rfl⟩
    simpa using h m hm
  · intro h m hm
    have hne : m.1 ≠ key := fun heq => h ⟨m, hm, heq⟩
    simpa [beq_eq_false_iff_ne] using hne.symm

/-- What is looked up in sound members is sound. -/
theorem IsSound.of_lookup (h : ms.IsSound) (hlookup : ms.lookup key = some v) : v.IsSound :=
  h.values _ (h.lookup_eq_some.mp hlookup)

/-- A member with a new key leaves the members sound. -/
theorem IsSound.concat (h : ms.IsSound) (hfresh : key ∉ ms.map Prod.fst) (hv : v.IsSound) :
    IsSound (ms ++ [(key, v)]) := by
  constructor
  · rw [List.map_append, List.map_singleton, ← List.concat_eq_append]
    exact h.nodup.concat hfresh
  · intro m hm
    rcases List.mem_append.mp hm with hm | hm
    · exact h.values m hm
    · obtain rfl : m = (key, v) := by simpa using hm
      exact hv

/-! ## (2) Tables that grow -/

/-- **A change that keeps members sound**, if there is one. -/
def Keeps (f : Members → Option Members) : Prop :=
  ∀ ms ms', ms.IsSound → f ms = some ms' → ms'.IsSound

/-- The keys of members in which one of them is changed: a new key comes last. -/
theorem keys_of_alter {f : Option Value → Option Value} (h : alter key f ms = some ms') :
    ms'.map Prod.fst = if key ∈ ms.map Prod.fst then ms.map Prod.fst else ms.map Prod.fst ++ [key] := by
  induction ms generalizing ms' with
  | nil =>
    obtain ⟨v, -, rfl⟩ := Option.map_eq_some_iff.mp h
    simp
  | cons m ms ih =>
    obtain ⟨k, w⟩ := m
    rw [alter] at h
    by_cases hkey : k = key
    · rw [if_pos hkey] at h
      obtain ⟨v, -, rfl⟩ := Option.map_eq_some_iff.mp h
      simp [hkey]
    · rw [if_neg hkey] at h
      obtain ⟨rest, hrest, rfl⟩ := Option.map_eq_some_iff.mp h
      rw [List.map_cons, List.map_cons, ih hrest]
      have hiff : key ∈ k :: ms.map Prod.fst ↔ key ∈ ms.map Prod.fst := by
        simp [List.mem_cons, Ne.symm hkey]
      by_cases hmem : key ∈ ms.map Prod.fst
      · rw [if_pos hmem, if_pos (hiff.mpr hmem)]
      · rw [if_neg hmem, if_neg (fun h => hmem (hiff.mp h)), List.cons_append]

/-- The values of members in which one of them is changed: each was there, or is the changed one. -/
theorem mem_of_alter {f : Option Value → Option Value} (h : alter key f ms = some ms')
    {m : Text × Value} (hm : m ∈ ms') :
    m ∈ ms ∨ f none = some m.2 ∨ ∃ w, (key, w) ∈ ms ∧ f (some w) = some m.2 := by
  induction ms generalizing ms' with
  | nil =>
    obtain ⟨v, hv, rfl⟩ := Option.map_eq_some_iff.mp h
    obtain rfl := List.mem_singleton.mp hm
    exact .inr (.inl hv)
  | cons m₀ ms ih =>
    obtain ⟨k, w⟩ := m₀
    rw [alter] at h
    -- the member of the key is changed, or it is looked for further on
    by_cases hkey : k = key
    · rw [if_pos hkey] at h
      obtain ⟨v, hv, rfl⟩ := Option.map_eq_some_iff.mp h
      subst hkey
      rcases List.mem_cons.mp hm with rfl | hm
      · exact .inr (.inr ⟨w, List.mem_cons_self, hv⟩)
      · exact .inl (List.mem_cons_of_mem _ hm)
    · rw [if_neg hkey] at h
      obtain ⟨rest, hrest, rfl⟩ := Option.map_eq_some_iff.mp h
      rcases List.mem_cons.mp hm with rfl | hm
      · exact .inl List.mem_cons_self
      · rcases ih hrest hm with hm | hnew | ⟨w', hw', hchanged⟩
        · exact .inl (List.mem_cons_of_mem _ hm)
        · exact .inr (.inl hnew)
        · exact .inr (.inr ⟨w', List.mem_cons_of_mem _ hw', hchanged⟩)

/-- **Changing one member keeps members sound** if a new value is sound, and the changed value of a sound
one is. -/
theorem keeps_alter {f : Option Value → Option Value} (hnew : ∀ v, f none = some v → v.IsSound)
    (hchanged : ∀ w v, w.IsSound → f (some w) = some v → v.IsSound) : Keeps (alter key f) := by
  intro ms ms' hms h
  constructor
  · rw [keys_of_alter h]
    by_cases hmem : key ∈ ms.map Prod.fst
    · rw [if_pos hmem]
      exact hms.nodup
    · rw [if_neg hmem, ← List.concat_eq_append]
      exact hms.nodup.concat hmem
  · intro m hm
    rcases mem_of_alter h hm with hm | hm | ⟨w, hw, hm⟩
    · exact hms.values m hm
    · exact hnew _ hm
    · exact hchanged w _ (hms.values _ hw) hm

/-- The first of several elements stays as it is when the last one is changed. -/
theorem alterLast_cons_cons (f : Members → Option Members) (v w : Value) (rest : List Value) :
    alterLast f (v :: w :: rest) = (alterLast f (w :: rest)).map (v :: ·) := by
  cases v <;> rfl

/-- Changing the last table of a list keeps its elements sound. -/
theorem isSound_of_alterLast {f : Members → Option Members} (hf : Keeps f)
    {elements elements' : List Value} (hsound : ∀ v ∈ elements, v.IsSound)
    (h : alterLast f elements = some elements') : ∀ v ∈ elements', v.IsSound := by
  induction elements generalizing elements' with
  | nil => exact absurd h (by simp [alterLast])
  | cons v elements ih =>
    cases elements with
    | nil =>
      cases v with
      | table origin inner =>
        obtain ⟨inner', hinner, rfl⟩ := Option.map_eq_some_iff.mp h
        have hv := Value.isSound_table.mp (hsound _ List.mem_cons_self)
        intro w hw
        obtain rfl := List.mem_singleton.mp hw
        exact Value.isSound_table.mpr (hf _ _ hv hinner)
      | _ => exact absurd h (by simp [alterLast])
    | cons w rest =>
      rw [alterLast_cons_cons] at h
      obtain ⟨rest', hrest, rfl⟩ := Option.map_eq_some_iff.mp h
      have hlast := ih (fun u hu => hsound u (List.mem_cons_of_mem _ hu)) hrest
      intro u hu
      rcases List.mem_cons.mp hu with rfl | hu
      · exact hsound _ List.mem_cons_self
      · exact hlast u hu

/-- Changing the table at a place keeps the value there sound: this is the change that a path makes at its
first key, whatever the rest of the path changes. -/
theorem isSound_of_map_table {f : Members → Option Members} (hf : Keeps f) {origin : Origin}
    {inner : Members} (hinner : inner.IsSound) {w : Value}
    (h : (f inner).map (Value.table origin) = some w) : w.IsSound := by
  obtain ⟨inner', hchanged, rfl⟩ := Option.map_eq_some_iff.mp h
  exact Value.isSound_table.mpr (hf _ _ hinner hchanged)

/-- Changing the last table of a list at a place keeps the value there sound. -/
theorem isSound_of_map_list {f : Members → Option Members} (hf : Keeps f) {grows : Bool}
    {elements : List Value} (hsound : (Value.list grows elements).IsSound) {w : Value}
    (h : (alterLast f elements).map (Value.list grows) = some w) : w.IsSound := by
  obtain ⟨elements', hchanged, rfl⟩ := Option.map_eq_some_iff.mp h
  cases hsound with
  | list hsound => exact .list (isSound_of_alterLast hf hsound hchanged)

/-- **A further member at the end of a dotted key** keeps members sound. -/
theorem keeps_assign (hv : v.IsSound) (path : List Text) : Keeps (assign key v path) := by
  induction path with
  | nil =>
    intro ms ms' hms h
    rw [assign_nil] at h
    cases hlookup : ms.lookup key with
    | some w =>
      rw [hlookup] at h
      exact absurd h (by simp)
    | none =>
      rw [hlookup] at h
      obtain rfl : ms ++ [(key, v)] = ms' := by simpa using h
      exact hms.concat (lookup_eq_none.mp hlookup) hv
  | cons k path ih =>
    -- the tables on the way are changed by the rest of the path
    apply keeps_alter
    · intro w hw
      exact isSound_of_map_table ih isSound_nil hw
    · intro w w' hw hw'
      split at hw'
      · rename_i hnone
        exact absurd hnone (Option.some_ne_none w)
      · split at hw'
        · rename_i hsome _
          obtain rfl := Option.some.inj hsome
          exact isSound_of_map_table ih (Value.isSound_table.mp hw) hw'
        · exact absurd hw' (by simp)
      · split at hw'
        · exact absurd hw' (by simp)
        · rename_i hsome _
          obtain rfl := Option.some.inj hsome
          exact isSound_of_map_list ih hw hw'
      · exact absurd hw' (by simp)

/-- **A change at the end of a path of headers** keeps members sound. -/
theorem Keeps.within {f : Members → Option Members} (hf : Keeps f) (path : List Text) :
    Keeps (within f path) := by
  induction path with
  | nil => exact hf
  | cons k path ih =>
    apply keeps_alter
    · intro w hw
      exact isSound_of_map_table ih isSound_nil hw
    · intro w w' hw hw'
      split at hw'
      · rename_i hnone
        exact absurd hnone (Option.some_ne_none w)
      · exact absurd hw' (by simp)
      · rename_i hsome
        obtain rfl := Option.some.inj hsome
        exact isSound_of_map_table ih (Value.isSound_table.mp hw) hw'
      · rename_i hsome
        obtain rfl := Option.some.inj hsome
        exact isSound_of_map_list ih hw hw'
      · exact absurd hw' (by simp)

/-- **The table of a header** keeps members sound: it is new, or takes the place of the one that was passed. -/
theorem keeps_defineTable (key : Text) : Keeps (defineTable key) := by
  intro ms ms' hms h
  unfold defineTable at h
  split at h
  · rename_i hnone
    obtain rfl := Option.some.inj h
    exact hms.concat (lookup_eq_none.mp hnone) (Value.isSound_table.mpr isSound_nil)
  · rename_i inner hpassed
    obtain rfl := Option.some.inj h
    have hinner : IsSound inner := Value.isSound_table.mp (hms.of_lookup hpassed)
    have hothers : IsSound (ms.filter fun m => m.1 != key) := by
      refine ⟨hms.nodup.sublist (List.filter_sublist.map _), ?_⟩
      intro m hm
      exact hms.values m (List.mem_filter.mp hm).1
    refine hothers.concat ?_ (Value.isSound_table.mpr hinner)
    intro hkey
    obtain ⟨m, hm, rfl⟩ := List.mem_map.mp hkey
    simpa using (List.mem_filter.mp hm).2
  · exact absurd h (by simp)

/-- **A further table in the list of a header** keeps members sound. -/
theorem keeps_appendTable (key : Text) : Keeps (appendTable key) := by
  have hempty : (Value.table .header []).IsSound := Value.isSound_table.mpr isSound_nil
  apply keeps_alter
  · intro w hw
    obtain rfl := Option.some.inj hw
    exact .list (by simpa using hempty)
  · intro w w' hw hw'
    split at hw'
    · rename_i hnone
      exact absurd hnone (Option.some_ne_none w)
    · rename_i hsome
      obtain rfl := Option.some.inj hsome
      obtain rfl := Option.some.inj hw'
      cases hw with
      | list helements =>
        refine .list ?_
        intro u hu
        rcases List.mem_append.mp hu with hu | hu
        · exact helements u hu
        · obtain rfl := List.mem_singleton.mp hu
          exact hempty
    · exact absurd hw' (by simp)

end Members

/-! ## (3) Values that are written out -/

/-- A number within the range of 64 bits is sound. -/
theorem isSound_of_inRange {i : Int} {v : Value} (h : inRange i = some v) : v.IsSound := by
  unfold inRange at h
  split at h
  · rename_i hword
    obtain rfl := Option.some.inj h
    exact .integer hword
  · exact absurd h (by simp)

/-- A whole number in a base other than ten is sound. -/
theorem isSound_of_basedInteger {base : Nat} {ds : Text} {v : Value}
    (h : basedInteger? base ds = some v) : v.IsSound := by
  obtain ⟨d, -, hd⟩ := Option.bind_eq_some_iff.mp h
  exact isSound_of_inRange hd

/-- A whole number is sound. -/
theorem isSound_of_integer {t : Text} {v : Value} (h : integer? t = some v) : v.IsSound := by
  unfold integer? at h
  split at h
  · exact isSound_of_basedInteger h
  · exact isSound_of_basedInteger h
  · exact isSound_of_basedInteger h
  · obtain ⟨d, -, hd⟩ := Option.bind_eq_some_iff.mp h
    exact isSound_of_inRange hd

/-- A word is sound: it is a truth value or a double. -/
theorem isSound_of_word {t : Text} {v : Value} (h : word? t = some v) : v.IsSound := by
  unfold word? at h
  obtain ⟨front, back, hwords, -⟩ := List.lookup_eq_some_iff.mp h
  have hmem := hwords ▸ List.mem_append_right front (List.mem_cons_self (a := (t, v)) (l := back))
  simp only [List.mem_cons, Prod.mk.injEq, List.not_mem_nil, or_false] at hmem
  rcases hmem with ⟨-, rfl⟩ | ⟨-, rfl⟩ | ⟨-, rfl⟩ | ⟨-, rfl⟩ | ⟨-, rfl⟩ | ⟨-, rfl⟩ | ⟨-, rfl⟩ | ⟨-, rfl⟩
  · exact .bool _
  · exact .bool _
  all_goals exact .float _

/-- A number with a fraction or an exponent is sound. -/
theorem isSound_of_float {t : Text} {v : Value} (h : float? t = some v) : v.IsSound := by
  unfold float? at h
  dsimp only at h
  split at h
  · exact absurd h (by simp)
  · split at h
    · split at h
      · exact absurd h (by simp)
      · obtain rfl := Option.some.inj h
        exact .float _
    · exact absurd h (by simp)

/-- A date is sound. -/
theorem isSound_of_date {t : Text} {v : Value} (h : date? t = some v) : v.IsSound := by
  have hdate : v = .date := by
    unfold date? at h
    split at h
    · exact (Option.some.inj h).symm
    · split at h
      · obtain ⟨offset, -, hoffset⟩ := Option.bind_eq_some_iff.mp h
        split at hoffset
        · exact (Option.some.inj hoffset).symm
        · exact absurd hoffset (by simp)
      · exact absurd h (by simp)
    · split at h
      · exact (Option.some.inj h).symm
      · exact absurd h (by simp)
  rw [hdate]
  exact .date

/-- A number, a date or a word is sound. -/
theorem isSound_of_scalar {t : Text} {v : Value} (h : scalar? t = some v) : v.IsSound := by
  unfold scalar? at h
  split at h
  · rename_i hword
    obtain rfl := Option.some.inj h
    exact isSound_of_word hword
  · split at h
    · rename_i hinteger
      obtain rfl := Option.some.inj h
      exact isSound_of_integer hinteger
    · split at h
      · rename_i hfloat
        obtain rfl := Option.some.inj h
        exact isSound_of_float hfloat
      · exact isSound_of_date h

/-- **What the three readers of values accept** within `fuel` steps is sound. -/
structure ReadsSound (fuel : Nat) : Prop where
  value : ∀ {depth t v rest}, readValue? fuel depth t = some (v, rest) → v.IsSound
  elements : ∀ {depth t vs rest}, readElements? fuel depth t = some (vs, rest) → ∀ v ∈ vs, v.IsSound
  pairs : ∀ {depth ms t ms' rest}, ms.IsSound → readPairs? fuel depth ms t = some (ms', rest) →
    Members.IsSound ms'

variable {fuel depth : Nat} {t rest : Text}

/-- What a reader gives that maps the result of another one. -/
theorem map_pair_eq_some {α β : Type} {o : Option (α × Text)} {f : α → β} {b : β}
    (h : (o.map fun (a, r) => (f a, r)) = some (b, rest)) : ∃ a, o = some (a, rest) ∧ f a = b := by
  obtain ⟨⟨a, r⟩, ho, heq⟩ := Option.map_eq_some_iff.mp h
  obtain ⟨hb, rfl⟩ := Prod.mk.inj heq
  exact ⟨a, ho, hb⟩

/-- One more step for a value. -/
theorem ReadsSound.value_succ (ih : ReadsSound fuel) {v : Value}
    (h : readValue? (fuel + 1) depth t = some (v, rest)) : v.IsSound := by
  unfold readValue? at h
  split at h
  · obtain ⟨s, -, rfl⟩ := map_pair_eq_some h
    exact .string s
  · obtain ⟨s, -, rfl⟩ := map_pair_eq_some h
    exact .string s
  · split at h
    · exact absurd h (by simp)
    · obtain ⟨vs, helements, rfl⟩ := map_pair_eq_some h
      exact .list (ih.elements helements)
  · split at h
    · exact absurd h (by simp)
    · split at h
      · obtain ⟨rfl, -⟩ := Prod.mk.inj (Option.some.inj h)
        exact Value.isSound_table.mpr Members.isSound_nil
      · obtain ⟨ms, hpairs, rfl⟩ := map_pair_eq_some h
        exact Value.isSound_table.mpr (ih.pairs Members.isSound_nil hpairs)
  · obtain ⟨v', hscalar, heq⟩ := Option.map_eq_some_iff.mp h
    obtain ⟨rfl, -⟩ := Prod.mk.inj heq
    exact isSound_of_scalar hscalar

/-- One more step for the elements of a list. -/
theorem ReadsSound.elements_succ (ih : ReadsSound fuel) {vs : List Value}
    (h : readElements? (fuel + 1) depth t = some (vs, rest)) : ∀ v ∈ vs, v.IsSound := by
  unfold readElements? at h
  split at h
  · exact absurd h (by simp)
  · obtain ⟨rfl, -⟩ := Prod.mk.inj (Option.some.inj h)
    simp
  · split at h
    · exact absurd h (by simp)
    · rename_i hvalue
      split at h
      · obtain ⟨rfl, -⟩ := Prod.mk.inj (Option.some.inj h)
        simpa using ih.value hvalue
      · obtain ⟨vs', helements, rfl⟩ := map_pair_eq_some h
        intro u hu
        rcases List.mem_cons.mp hu with rfl | hu
        · exact ih.value hvalue
        · exact ih.elements helements u hu
      · exact absurd h (by simp)

/-- One more step for the members of a table between braces. -/
theorem ReadsSound.pairs_succ (ih : ReadsSound fuel) {ms ms' : Members} (hms : ms.IsSound)
    (h : readPairs? (fuel + 1) depth ms t = some (ms', rest)) : ms'.IsSound := by
  unfold readPairs? at h
  split at h
  · exact absurd h (by simp)
  · split at h
    · exact absurd h (by simp)
    · split at h
      · exact absurd h (by simp)
      · rename_i hvalue
        split at h
        · exact absurd h (by simp)
        · rename_i hassign
          have hgrown := Members.keeps_assign (ih.value hvalue) _ _ _ hms hassign
          split at h
          · obtain ⟨rfl, -⟩ := Prod.mk.inj (Option.some.inj h)
            exact hgrown
          · exact ih.pairs hgrown h
          · exact absurd h (by simp)

/-- **Every value that is written out is sound**: induction on the steps that the readers may take. -/
theorem readsSound (fuel : Nat) : ReadsSound fuel := by
  induction fuel with
  | zero =>
    refine ⟨?_, ?_, ?_⟩
    · intro depth t v rest h
      exact absurd h (by simp [readValue?])
    · intro depth t vs rest h
      exact absurd h (by simp [readElements?])
    · intro depth ms t ms' rest _ h
      exact absurd h (by simp [readPairs?])
  | succ fuel ih => exact ⟨ih.value_succ, ih.elements_succ, ih.pairs_succ⟩

/-! ## (4) Documents -/

/-- A line keeps the members of a draft sound. -/
theorem isSound_of_line {d d' : Draft} (hd : d.members.IsSound) (h : line? d t = some (d', rest)) :
    d'.members.IsSound := by
  unfold line? at h
  split at h
  · obtain ⟨rfl, -⟩ := Prod.mk.inj (Option.some.inj h)
    exact hd
  · -- a further element of a list of tables
    unfold elementHeader? at h
    split at h
    · obtain ⟨ms, hms, heq⟩ := Option.map_eq_some_iff.mp h
      obtain ⟨rfl, -⟩ := Prod.mk.inj heq
      exact (Members.keeps_appendTable _).within _ _ _ hd hms
    · exact absurd h (by simp)
  · -- a table
    unfold tableHeader? at h
    split at h
    · obtain ⟨ms, hms, heq⟩ := Option.map_eq_some_iff.mp h
      obtain ⟨rfl, -⟩ := Prod.mk.inj heq
      exact (Members.keeps_defineTable _).within _ _ _ hd hms
    · exact absurd h (by simp)
  · split at h
    · obtain ⟨rfl, -⟩ := Prod.mk.inj (Option.some.inj h)
      exact hd
    · -- a member of the table that was named last
      unfold memberLine? at h
      split at h
      · exact absurd h (by simp)
      · split at h
        · exact absurd h (by simp)
        · split at h
          · exact absurd h (by simp)
          · rename_i hvalue
            obtain ⟨ms, hms, heq⟩ := Option.map_eq_some_iff.mp h
            obtain ⟨rfl, -⟩ := Prod.mk.inj heq
            have hv := (readsSound _).value hvalue
            exact (Members.keeps_assign hv _).within _ _ _ hd hms

/-- The lines behind a sound draft give sound members. -/
theorem isSound_of_readLines {d : Draft} {ms : Members} (hd : d.members.IsSound)
    (h : readLines? fuel d t = some ms) : ms.IsSound := by
  induction fuel generalizing d t with
  | zero => exact absurd h (by simp [readLines?])
  | succ fuel ih =>
    unfold readLines? at h
    split at h
    · exact absurd h (by simp)
    · rename_i hline
      have hnext := isSound_of_line hd hline
      split at h
      · exact absurd h (by simp)
      · obtain rfl := Option.some.inj h
        exact hnext
      · exact ih hnext h

/-- **The table of a document is sound.** -/
theorem isSound_of_readDocument {ms : Members} (h : readDocument? t = some ms) : ms.IsSound :=
  isSound_of_readLines Members.isSound_nil h

end ChangeGate.Toml
