import ChangeGate.Proofs.Pattern.Precedence
import Mathlib.Data.Set.Basic

/-! # The set of included paths

The paths that a rule set includes are computed from the left to the right. A rule at the end takes the
paths of its glob out of the set (**`includedSet_append_excluding`**) or puts them in
(**`includedSet_append_including`**), but for the first rule that includes, which leaves no other path in
(**`includedSet_append_first`**). Rules of one sign include the paths that one of them matches, or all
other paths (**`mem_includedSet_of_sign`**). All of this is put together in **`includedSet_append`**. -/

namespace ChangeGate

/-- The paths that a glob matches. -/
def Glob.paths (g : Text) : Set Text := {path | Glob.Matches (Glob.tokens g) path}

section

variable [Glob.Engine]

/-- A rule matches the paths of its glob. -/
theorem Rule.accepts_iff_mem {r : Rule} {path : Text} :
    r.accepts path = true ↔ path ∈ Glob.paths r.glob := Rule.accepts_iff

namespace RuleSet

/-- The paths that a rule set includes. -/
def includedSet (rs : RuleSet) : Set Text := {path | rs.includes path = true}

/-- A rule set with one more rule at its end. -/
def append (rs : RuleSet) (r : Rule) : RuleSet := ⟨rs.rules ++ [r]⟩

variable {rs : RuleSet} {r : Rule} {path : Text}

@[simp] theorem mem_includedSet : path ∈ rs.includedSet ↔ rs.includes path = true := Iff.rfl

@[simp] theorem rules_append (rs : RuleSet) (r : Rule) : (rs.append r).rules = rs.rules ++ [r] := rfl

/-! ## (1) A rule at the end -/

/-- A rule at the end adds an inclusion if it includes. -/
theorem hasInclusion_append : (rs.append r).hasInclusion = (rs.hasInclusion || !r.negated) := by
  simp [hasInclusion]

/-- A rule at the end that does not change the default overwrites the decision without it. -/
theorem includes_append (h : (rs.append r).hasInclusion = rs.hasInclusion) (path : Text) :
    (rs.append r).includes path = overwrite path (rs.includes path) r := by
  rw [includes, h, rules_append, List.foldl_append, List.foldl_cons, List.foldl_nil, includes]

/-- **An exclusion at the end** takes the paths of its glob out. -/
theorem includedSet_append_excluding (hr : r.negated = true) :
    (rs.append r).includedSet = rs.includedSet \ Glob.paths r.glob := by
  have hdefault : (rs.append r).hasInclusion = rs.hasInclusion := by
    rw [hasInclusion_append, hr, Bool.not_true, Bool.or_false]
  ext path
  rw [mem_includedSet, includes_append hdefault, overwrite, Set.mem_sdiff, mem_includedSet,
    ← Rule.accepts_iff_mem]
  cases r.accepts path <;> simp [hr]

/-- **An inclusion at the end** puts the paths of its glob in, if it is not the first one. -/
theorem includedSet_append_including (hr : r.negated = false) (hrs : rs.hasInclusion = true) :
    (rs.append r).includedSet = rs.includedSet ∪ Glob.paths r.glob := by
  have hdefault : (rs.append r).hasInclusion = rs.hasInclusion := by
    rw [hasInclusion_append, hrs, Bool.true_or]
  ext path
  rw [mem_includedSet, includes_append hdefault, overwrite, Set.mem_union, mem_includedSet,
    ← Rule.accepts_iff_mem]
  cases r.accepts path <;> simp [hr]

/-- **The first inclusion**, at the end, leaves the paths of its glob only: with it no path is included by
default, and none of the rules before it includes one. -/
theorem includedSet_append_first (hr : r.negated = false) (hrs : rs.hasInclusion = false) :
    (rs.append r).includedSet = Glob.paths r.glob := by
  have hdefault : (rs.append r).hasInclusion = true := by
    rw [hasInclusion_append, hr, Bool.not_false, Bool.or_true]
  have hexcluding : ∀ other ∈ rs.rules, other.negated = true := by
    simpa [hasInclusion] using hrs
  ext path
  have hbefore : rs.rules.foldl (overwrite path) false = false := by
    rw [foldl_overwrite_of_sign hexcluding]
    simp
  rw [mem_includedSet, includes, hdefault, rules_append, List.foldl_append, Bool.not_true, hbefore,
    List.foldl_cons, List.foldl_nil, overwrite, ← Rule.accepts_iff_mem]
  cases r.accepts path <;> simp [hr]

/-! ## (2) Rules of one sign -/

variable {negated : Bool} {globs : List Text} {rules : List Rule}

/-- Rules for some globs, all of one sign, have this sign. -/
theorem negated_of_items (h : rules.map Rule.item = globs.map (Prod.mk negated)) :
    ∀ r ∈ rules, r.negated = negated := by
  intro r hr
  have hitem : r.item ∈ globs.map (Prod.mk negated) := by
    rw [← h]
    exact List.mem_map_of_mem hr
  obtain ⟨g, -, hg⟩ := List.mem_map.mp hitem
  exact (congrArg Prod.fst hg).symm

/-- Rules for some globs match the paths of these globs. -/
theorem any_accepts_iff (h : rules.map Rule.item = globs.map (Prod.mk negated)) :
    rules.any (·.accepts path) = true ↔ ∃ g ∈ globs, path ∈ Glob.paths g := by
  have hglobs : rules.map Rule.glob = globs := by
    have hsnd := congrArg (List.map Prod.snd) h
    rwa [List.map_map, List.map_map, show Prod.snd ∘ Prod.mk negated = id from rfl,
      List.map_id] at hsnd
  rw [← hglobs, List.any_eq_true]
  constructor
  · rintro ⟨r, hr, haccepts⟩
    exact ⟨r.glob, List.mem_map_of_mem hr, Rule.accepts_iff_mem.mp haccepts⟩
  · rintro ⟨g, hg, hpath⟩
    obtain ⟨r, hr, rfl⟩ := List.mem_map.mp hg
    exact ⟨r, hr, Rule.accepts_iff_mem.mpr hpath⟩

/-- Rules of one sign exclude by default exactly if they include. -/
theorem hasInclusion_of_sign (hrules : rules ≠ []) (h : ∀ r ∈ rules, r.negated = negated) :
    (RuleSet.mk rules).hasInclusion = !negated := by
  obtain ⟨first, hfirst⟩ := List.exists_mem_of_ne_nil rules hrules
  rw [Bool.eq_iff_iff, hasInclusion, List.any_eq_true]
  constructor
  · rintro ⟨r, hr, hincludes⟩
    rwa [h r hr] at hincludes
  · intro hincludes
    exact ⟨first, hfirst, by rwa [h first hfirst]⟩

/-- **Rules of one sign** include the paths of their globs, or all other paths. -/
theorem mem_includedSet_of_sign (hglobs : globs ≠ [])
    (h : rules.map Rule.item = globs.map (Prod.mk negated)) :
    path ∈ (RuleSet.mk rules).includedSet ↔ (negated = false ↔ ∃ g ∈ globs, path ∈ Glob.paths g) := by
  have hsign : ∀ r ∈ rules, r.negated = negated := negated_of_items h
  have hrules : rules ≠ [] := by
    rintro rfl
    exact hglobs (List.map_eq_nil_iff.mp h.symm)
  -- a path that no rule matches is included exactly if all of them exclude
  rw [mem_includedSet, includes, foldl_overwrite_of_sign hsign, hasInclusion_of_sign hrules hsign,
    Bool.not_not, ← any_accepts_iff h]
  cases rules.any (·.accepts path) <;> simp

/-- **The included paths as a set.** An exclusion at the end takes the paths of its glob out, and so adds
none. An inclusion at the end puts the paths of its glob in, and so removes none, if there is an inclusion
before it; if there is none, exactly the paths of its glob are left. Inclusions of some globs and exclusions
of the same globs include complementary sets. -/
theorem includedSet_append (rs : RuleSet) {g : Text} {excluding including : Rule}
    (hexcluding : excluding.item = (true, g)) (hincluding : including.item = (false, g)) :
    (rs.append excluding).includedSet = rs.includedSet \ Glob.paths g ∧
    (rs.hasInclusion = true →
      (rs.append including).includedSet = rs.includedSet ∪ Glob.paths g) ∧
    (rs.hasInclusion = false → (rs.append including).includedSet = Glob.paths g) ∧
    (rs.append excluding).includedSet ⊆ rs.includedSet ∧
    (rs.hasInclusion = true → rs.includedSet ⊆ (rs.append including).includedSet) ∧
    ∀ {globs : List Text} {inclusions exclusions : List Rule}, globs ≠ [] →
      inclusions.map Rule.item = globs.map (Prod.mk false) →
      exclusions.map Rule.item = globs.map (Prod.mk true) →
      (RuleSet.mk inclusions).includedSet = (RuleSet.mk exclusions).includedSetᶜ := by
  obtain ⟨hout, rfl⟩ := Prod.mk.inj hexcluding
  obtain ⟨hin, hglob⟩ := Prod.mk.inj hincluding
  have hexclude : (rs.append excluding).includedSet = rs.includedSet \ Glob.paths excluding.glob :=
    includedSet_append_excluding hout
  have hinclude (hrs : rs.hasInclusion = true) :
      (rs.append including).includedSet = rs.includedSet ∪ Glob.paths including.glob :=
    includedSet_append_including hin hrs
  refine ⟨hexclude, ?_, ?_, ?_, ?_, ?_⟩
  · intro hrs
    rw [hinclude hrs, hglob]
  · intro hrs
    rw [includedSet_append_first hin hrs, hglob]
  · rw [hexclude]
    exact Set.sdiff_subset
  · intro hrs
    rw [hinclude hrs]
    exact Set.subset_union_left
  · intro globs inclusions exclusions hglobs hinclusions hexclusions
    ext path
    rw [Set.mem_compl_iff, mem_includedSet_of_sign hglobs hinclusions,
      mem_includedSet_of_sign hglobs hexclusions]
    simp

end RuleSet

end

namespace RuleSet

/-- A file outside of `docs` is included as long as rules only exclude. The rule that takes in `docs` is the
first one to include, and then the file is lost; behind another rule that includes it only adds. -/
theorem includedSet_append_docs :
    Rule.ofEntry "!docs/**".toList = .ok docsExcluded ∧
    Rule.ofEntry "docs/**".toList = .ok docsIncluded ∧
    "README".toList ∈ (RuleSet.mk [libraryExcluded]).includedSet ∧
    ((RuleSet.mk [libraryExcluded]).append docsIncluded).includedSet = Glob.paths "docs/**".toList ∧
    "README".toList ∉ Glob.paths "docs/**".toList ∧
    ((RuleSet.mk [generatedIncluded]).append docsIncluded).includedSet =
      (RuleSet.mk [generatedIncluded]).includedSet ∪ Glob.paths "docs/**".toList ∧
    (RuleSet.mk [generatedIncluded]).includedSet ⊆
      ((RuleSet.mk [generatedIncluded]).append docsIncluded).includedSet ∧
    ((RuleSet.mk [generatedIncluded]).append docsExcluded).includedSet =
      (RuleSet.mk [generatedIncluded]).includedSet \ Glob.paths "docs/**".toList ∧
    (RuleSet.mk [docsIncluded]).includedSet = (RuleSet.mk [docsExcluded]).includedSetᶜ := by
  have hmember : "README".toList ∈ (RuleSet.mk [libraryExcluded]).includedSet := by
    rw [mem_includedSet]
    decide
  have hlost : "README".toList ∉ Glob.paths "docs/**".toList := by
    show ¬ Glob.Matches (Glob.tokens "docs/**".toList) "README".toList
    decide
  have hout : Rule.ofEntry "!docs/**".toList = .ok docsExcluded := rfl
  have hin : Rule.ofEntry "docs/**".toList = .ok docsIncluded := rfl
  have hexcluding : docsExcluded.item = (true, "docs/**".toList) := Rule.item_of_ofEntry hout
  have hincluding : docsIncluded.item = (false, "docs/**".toList) := Rule.item_of_ofEntry hin
  have hinclusions : [docsIncluded].map Rule.item = ["docs/**".toList].map (Prod.mk false) := rfl
  have hexclusions : [docsExcluded].map Rule.item = ["docs/**".toList].map (Prod.mk true) := rfl
  obtain ⟨-, -, hfirst, -, -, hcomplement⟩ :=
    includedSet_append (RuleSet.mk [libraryExcluded]) hexcluding hincluding
  obtain ⟨hexclude, hinclude, -, -, hadds, -⟩ :=
    includedSet_append (RuleSet.mk [generatedIncluded]) hexcluding hincluding
  exact ⟨hout, hin, hmember, hfirst rfl, hlost, hinclude rfl, hadds rfl, hexclude,
    hcomplement (by simp) hinclusions hexclusions⟩

end RuleSet

end ChangeGate
