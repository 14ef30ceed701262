import ChangeGate.Proofs.Glob.Matcher
import ChangeGate.Proofs.Pattern.Items
import ChangeGate.Report.Layout

/-! # The decision that a pattern list describes

A list of items **includes** a path when the last item whose glob matches the path does not exclude it,
or when no item matches and all of them exclude. The rules of a text are its items, compiled
(**`lists_of_ofText`**), and going through rules one by one ends with what the last matching one says
(**`foldl_overwrite`**). So a report holds what the text describes (**`of_ofText`**). -/

namespace ChangeGate

/-! ## (1) The decision of a list of items -/

/-- Whether tokens match a path is decided by the table of the path. -/
instance Glob.decidableMatches (ts : List Glob.Token) (path : Text) :
    Decidable (Glob.Matches ts path) :=
  decidable_of_iff (Glob.matchesTokens ts path = true) Glob.matchesTokens_iff

namespace Pattern

/-- The last item of a list whose glob matches a path. -/
def lastMatch? (path : Text) (items : List (Bool × Text)) : Option (Bool × Text) :=
  (items.filter fun item => Glob.Matches (Glob.tokens item.2) path).getLast?

/-- **A list includes a path** when the last item that matches it does not exclude, or when no item
matches it and none includes. -/
def Includes (items : List (Bool × Text)) (path : Text) : Prop :=
  (lastMatch? path items).map (·.1) = some false ∨
    lastMatch? path items = none ∧ ∀ item ∈ items, item.1 = true

instance (items : List (Bool × Text)) (path : Text) : Decidable (Includes items path) :=
  inferInstanceAs (Decidable (_ ∨ _))

variable {items : List (Bool × Text)} {item : Bool × Text} {path : Text}

/-- A last item that matches is the last one that matches. -/
theorem lastMatch?_concat_of_matches (h : Glob.Matches (Glob.tokens item.2) path) :
    lastMatch? path (items ++ [item]) = some item := by
  rw [lastMatch?, List.filter_append, List.filter_singleton, decide_eq_true h]
  exact List.getLast?_concat

/-- A last item that does not match can be left out. -/
theorem lastMatch?_concat_of_not (h : ¬ Glob.Matches (Glob.tokens item.2) path) :
    lastMatch? path (items ++ [item]) = lastMatch? path items := by
  rw [lastMatch?, List.filter_append, List.filter_singleton, decide_eq_false h]
  simp [lastMatch?]

end Pattern

/-! ## (2) Rules -/

section

variable [Glob.Engine]

namespace Rule

/-- The item that a rule was compiled from. -/
def item (r : Rule) : Bool × Text := (r.negated, r.glob)

/-- A rule matches the paths that its glob matches. -/
theorem accepts_iff {r : Rule} {path : Text} :
    r.accepts path = true ↔ Glob.Matches (Glob.tokens r.item.2) path :=
  Glob.accepts_iff_matches r.compiled

/-- Compiling keeps the sign and the glob. -/
theorem item_of_ofEntry {entry : Text} {r : Rule} (h : ofEntry entry = .ok r) :
    r.item = Pattern.sign entry := by
  unfold ofEntry ofGlob at h
  split at h
  · obtain rfl := Except.ok.inj h
    rfl
  · exact absurd h (by simp)

/-- Compiling entries in a row keeps their signs and globs. -/
theorem items_of_mapM {entries : List Text} {rules : List Rule}
    (h : entries.mapM ofEntry = .ok rules) : rules.map item = entries.map Pattern.sign := by
  induction entries generalizing rules with
  | nil =>
    obtain rfl := Except.ok.inj h
    rfl
  | cons entry entries ih =>
    rw [List.mapM_cons] at h
    cases hentry : ofEntry entry with
    | error e =>
      rw [hentry] at h
      exact absurd h (by simp [bind, Except.bind])
    | ok r =>
      cases hentries : entries.mapM ofEntry with
      | error e =>
        rw [hentry, hentries] at h
        exact absurd h (by simp [bind, Except.bind])
      | ok rest =>
        rw [hentry, hentries] at h
        obtain rfl := Except.ok.inj h
        rw [List.map_cons, List.map_cons, item_of_ofEntry hentry, ih hentries]

end Rule

namespace RuleSet

/-- **The rules of a text are the items that it lists.** -/
theorem lists_of_ofText {t : Text} {rs : RuleSet} (h : ofText t = .ok rs) :
    Pattern.Lists t (rs.rules.map Rule.item) := by
  unfold ofText ofEntries at h
  cases hrules : (Pattern.entries t).mapM Rule.ofEntry with
  | error e =>
    rw [hrules] at h
    exact absurd h (by simp [Except.map])
  | ok rules =>
    rw [hrules] at h
    obtain rfl := Except.ok.inj h
    exact Pattern.lists_iff.mpr (Rule.items_of_mapM hrules)

/-- **The last rule that matches decides**: induction on the rules from the last one, each of which
overwrites the decision or leaves it. -/
theorem foldl_overwrite (path : Text) (start : Bool) (rules : List Rule) :
    rules.foldl (overwrite path) start =
      ((Pattern.lastMatch? path (rules.map Rule.item)).map (!·.1)).getD start := by
  induction rules using List.reverseRecOn with
  | nil => rfl
  | append_singleton rules r ih =>
    rw [List.foldl_append, List.foldl_cons, List.foldl_nil, List.map_append, List.map_singleton,
      overwrite]
    by_cases hr : r.accepts path = true
    · rw [if_pos hr, Pattern.lastMatch?_concat_of_matches (Rule.accepts_iff.mp hr)]
      rfl
    · rw [if_neg hr, Pattern.lastMatch?_concat_of_not (fun h => hr (Rule.accepts_iff.mpr h)), ih]

/-- Without a rule that includes, all items exclude. -/
theorem hasInclusion_eq_false {rs : RuleSet} :
    rs.hasInclusion = false ↔ ∀ item ∈ rs.rules.map Rule.item, item.1 = true := by
  simp [hasInclusion, Rule.item]

/-- **A rule set includes the paths that its items include.** -/
theorem includes_iff {rs : RuleSet} {path : Text} :
    rs.includes path = true ↔ Pattern.Includes (rs.rules.map Rule.item) path := by
  rw [includes, foldl_overwrite, Pattern.Includes, ← hasInclusion_eq_false]
  cases Pattern.lastMatch? path (rs.rules.map Rule.item) <;> simp

end RuleSet

/-! ## (3) Reports -/

/-- **A report holds what the text of the patterns describes.** The text lists its items in one way;
the included files are those of all the files that the items include, in order, and something changed
exactly if there are any. -/
theorem Report.of_ofText {t : Text} {rs : RuleSet} (h : RuleSet.ofText t = .ok rs)
    (files : List Text) :
    ∃ items, (∀ others, Pattern.Lists t others ↔ others = items) ∧
      (Report.of rs files).files = files ∧
      (Report.of rs files).included = files.filter (fun path => Pattern.Includes items path) ∧
      ((Report.of rs files).changed = true ↔ (Report.of rs files).included ≠ []) := by
  refine ⟨rs.rules.map Rule.item, ?_, rfl, ?_, ?_⟩
  · intro others
    rw [Pattern.lists_iff, Pattern.lists_iff.mp (RuleSet.lists_of_ofText h)]
  · refine List.filter_congr fun path _ => ?_
    rw [Bool.eq_iff_iff, RuleSet.includes_iff, decide_eq_true_iff]
  · rw [Report.of, RuleSet.includesAny, RuleSet.included, List.any_eq_true, ne_eq,
      List.filter_eq_nil_iff]
    simp

end

/-- A pattern list whose items overlap. Two of them are in quotes, and two lines hold none. -/
def overlappingPatterns : Text :=
  "files:\r\n- \"src/**\"\r\n  - '! src/gen/**' \n-src/gen/a?\n# - doc".toList

/-- The rules of that list. -/
def overlappingRules : RuleSet :=
  ⟨[⟨"src/**".toList, false, .lead "src/".toList, rfl⟩,
    ⟨"src/gen/**".toList, true, .lead "src/gen/".toList, rfl⟩,
    ⟨"src/gen/a?".toList, false, .general "src/gen/a?".toList, rfl⟩]⟩

/-- The last item includes a file again that the one before excludes. -/
theorem Report.of_ofText_overlapping :
    RuleSet.ofText overlappingPatterns = .ok overlappingRules ∧
    (Report.of overlappingRules
        ["src/gen/ab".toList, "doc".toList, "src/gen/b".toList, "src/gen/ab".toList]).included =
      ["src/gen/ab".toList, "src/gen/ab".toList] ∧
    Pattern.Lists overlappingPatterns
      [(false, "src/**".toList), (true, "src/gen/**".toList), (false, "src/gen/a?".toList)] := by
  have hrules : RuleSet.ofText overlappingPatterns = .ok overlappingRules := rfl
  obtain ⟨items, hitems, -, hincluded, -⟩ := Report.of_ofText hrules
    ["src/gen/ab".toList, "doc".toList, "src/gen/b".toList, "src/gen/ab".toList]
  have hlist : [(false, "src/**".toList), (true, "src/gen/**".toList),
      (false, "src/gen/a?".toList)] = items :=
    (hitems _).mp (RuleSet.lists_of_ofText hrules)
  subst hlist
  refine ⟨hrules, ?_, (hitems _).mpr rfl⟩
  rw [hincluded]
  decide

end ChangeGate
