import ChangeGate.Proofs.Pattern.Decision
import Mathlib.Data.List.Perm.Basic
import Mathlib.Order.Fin.Basic
import Mathlib.Order.WellFounded

/-! # Which rules a decision rests on

Going through rules keeps the decision before them only if none of them matches
(**`foldl_overwrite_eq_iff`**), and rules of one sign only ask whether one of them matches
(**`foldl_overwrite_of_sign`**). From these two facts follows what becomes of a decision when the list of
rules is changed in the middle:

* **`includes_remove`** — a rule can be left out where it decides nothing;
* **`includes_reorder`** — the order matters for two rules of opposite signs that match the same path, and
  then only if no later rule matches it. -/

namespace ChangeGate

/-! ## (1) What later rules leave of a decision -/

namespace Pattern

/-- There is no last match where nothing matches. -/
theorem lastMatch?_eq_none {path : Text} {items : List (Bool × Text)} :
    lastMatch? path items = none ↔ ∀ item ∈ items, ¬ Glob.Matches (Glob.tokens item.2) path := by
  rw [lastMatch?, List.getLast?_eq_none_iff, List.filter_eq_nil_iff]
  simp

end Pattern

namespace RuleSet

section

variable [Glob.Engine] {path : Text} {rules rules' before after : List Rule} {x y : Rule}

/-- The items of rules have no last match exactly if no rule matches. -/
theorem lastMatch?_items_eq_none :
    Pattern.lastMatch? path (rules.map Rule.item) = none ↔ ∀ r ∈ rules, r.accepts path = false := by
  rw [Pattern.lastMatch?_eq_none, List.forall_mem_map]
  refine forall₂_congr fun r _ => ?_
  rw [← Rule.accepts_iff, Bool.not_eq_true]

/-- Rules that do not match leave the decision. -/
theorem foldl_overwrite_of_none (h : ∀ r ∈ rules, r.accepts path = false) (included : Bool) :
    rules.foldl (overwrite path) included = included := by
  rw [foldl_overwrite, lastMatch?_items_eq_none.mpr h]
  rfl

/-- **Two decisions become the same behind some rules** exactly if they were the same before or one of the
rules matches, for then the last one that matches decides in both cases. -/
theorem foldl_overwrite_eq_iff {included included' : Bool} :
    rules.foldl (overwrite path) included = rules.foldl (overwrite path) included' ↔
      included = included' ∨ ∃ r ∈ rules, r.accepts path = true := by
  by_cases hmatch : ∃ r ∈ rules, r.accepts path = true
  · have hlast : Pattern.lastMatch? path (rules.map Rule.item) ≠ none := by
      intro hnone
      obtain ⟨r, hr, haccepts⟩ := hmatch
      rw [lastMatch?_items_eq_none.mp hnone r hr] at haccepts
      exact Bool.false_ne_true haccepts
    obtain ⟨item, hitem⟩ := Option.ne_none_iff_exists'.mp hlast
    rw [foldl_overwrite, foldl_overwrite, hitem]
    simp [hmatch]
  · have hnone : ∀ r ∈ rules, r.accepts path = false := by simpa using hmatch
    rw [foldl_overwrite_of_none hnone, foldl_overwrite_of_none hnone]
    simp [hmatch]

/-- **Rules of one sign** decide as they say if one of them matches. -/
theorem foldl_overwrite_of_sign {negated : Bool} (h : ∀ r ∈ rules, r.negated = negated)
    (included : Bool) :
    rules.foldl (overwrite path) included =
      if rules.any (·.accepts path) then !negated else included := by
  induction rules generalizing included with
  | nil => rfl
  | cons r rules ih =>
    have hrest : ∀ r ∈ rules, r.negated = negated := fun r hr => h r (List.mem_cons_of_mem _ hr)
    rw [List.foldl_cons, ih hrest, overwrite, h r List.mem_cons_self, List.any_cons]
    cases r.accepts path <;> simp

/-! ## (2) Leaving out a rule -/

section Remove

variable {rs rest : RuleSet}

/-- A rule changes only the decisions that it makes itself, as long as the default is the same without
it. -/
theorem deciding_of_includes_ne (hrs : rs.rules = before ++ x :: after)
    (hrest : rest.rules = before ++ after) (hsame : rest.hasInclusion = rs.hasInclusion)
    (hne : rest.includes path ≠ rs.includes path) :
    x.accepts path = true ∧ ∀ r ∈ after, r.accepts path = false := by
  rw [includes, includes, hsame, hrs, hrest, List.foldl_append, List.foldl_append, List.foldl_cons,
    ne_eq, foldl_overwrite_eq_iff, not_or] at hne
  obtain ⟨hdecision, hafter⟩ := hne
  constructor
  · by_contra hx
    exact hdecision (by rw [overwrite, if_neg hx])
  · simpa using hafter

/-- A rule that excludes does nothing where no rule before it includes, unless it decides whether paths
are included by default. -/
theorem includes_remove_of_leading (hrs : rs.rules = before ++ x :: after)
    (hrest : rest.rules = before ++ after) (hx : x.negated = true)
    (hbefore : ∀ r ∈ before, r.negated = true) (hinclusion : rs.hasInclusion = true) :
    rest.includes path = rs.includes path := by
  have hsame : rest.hasInclusion = rs.hasInclusion := by
    simp [hasInclusion, hrs, hrest, hx]
  -- neither what precedes the rule nor the rule itself includes a path
  have hstart : before.foldl (overwrite path) (!true) = false := by
    rw [foldl_overwrite_of_sign hbefore]
    simp
  have hkept : overwrite path false x = false := by simp [overwrite, hx]
  rw [includes, includes, hsame, hinclusion, hrs, hrest, List.foldl_append, List.foldl_append,
    List.foldl_cons, hstart, hkept]

/-- **Rules that can be left out**. A rule that excludes can, if no rule before it includes and some rule
does; so can a rule if whatever it matches is matched by a later rule, and there is a rule that includes
without it exactly if there is one with it. In general, as long as leaving out a rule does not change
whether some rule includes, the decision changes only for paths that this rule is the last one to match. -/
theorem includes_remove (hrs : rs.rules = before ++ x :: after)
    (hrest : rest.rules = before ++ after) :
    (x.negated = true → (∀ r ∈ before, r.negated = true) → rs.hasInclusion = true →
      ∀ path, rest.includes path = rs.includes path) ∧
    ((∀ path, x.accepts path = true → ∃ r ∈ after, r.accepts path = true) →
      rest.hasInclusion = rs.hasInclusion →
      ∀ path, rest.includes path = rs.includes path) ∧
    (rest.hasInclusion = rs.hasInclusion →
      ∀ path, rest.includes path ≠ rs.includes path →
        x.accepts path = true ∧ ∀ r ∈ after, r.accepts path = false) := by
  refine ⟨?_, ?_, ?_⟩
  · intro hx hbefore hinclusion path
    exact includes_remove_of_leading hrs hrest hx hbefore hinclusion
  · intro hlater hsame path
    by_contra hne
    obtain ⟨hx, hafter⟩ := deciding_of_includes_ne hrs hrest hsame hne
    obtain ⟨r, hr, haccepts⟩ := hlater path hx
    rw [hafter r hr] at haccepts
    exact Bool.false_ne_true haccepts
  · intro hsame path hne
    exact deciding_of_includes_ne hrs hrest hsame hne

end Remove

end

/-- Leaves out what is under `docs`. -/
def docsExcluded : Rule := ⟨"docs/**".toList, true, .lead "docs/".toList, rfl⟩

/-- Takes in what is under `docs`. -/
def docsIncluded : Rule := ⟨"docs/**".toList, false, .lead "docs/".toList, rfl⟩

/-- Leaves out what is under `lib`. -/
def libraryExcluded : Rule := ⟨"lib/**".toList, true, .lead "lib/".toList, rfl⟩

/-- Takes in what is under `lib/gen`. -/
def generatedIncluded : Rule := ⟨"lib/gen/**".toList, false, .lead "lib/gen/".toList, rfl⟩

/-- Rules that cover each other in part. -/
def layeredRules : RuleSet := ⟨[docsExcluded, generatedIncluded, libraryExcluded, docsIncluded]⟩

/-- Of these rules the first one can be left out, since it excludes before any rule includes, and the second
one, since the third one matches whatever it matches. The third one cannot: it decides about a file under
`lib/gen`. -/
theorem includes_remove_layered :
    (∀ path, (RuleSet.mk [generatedIncluded, libraryExcluded, docsIncluded]).includes path =
      layeredRules.includes path) ∧
    (∀ path, (RuleSet.mk [docsExcluded, libraryExcluded, docsIncluded]).includes path =
      layeredRules.includes path) ∧
    (RuleSet.mk [docsExcluded, generatedIncluded, docsIncluded]).includes "lib/gen/a".toList ≠
      layeredRules.includes "lib/gen/a".toList ∧
    libraryExcluded.accepts "lib/gen/a".toList = true ∧
    ∀ r ∈ [docsIncluded], r.accepts "lib/gen/a".toList = false := by
  have hne : (RuleSet.mk [docsExcluded, generatedIncluded, docsIncluded]).includes
      "lib/gen/a".toList ≠ layeredRules.includes "lib/gen/a".toList := by decide
  have hfirst : layeredRules.rules =
      [] ++ docsExcluded :: [generatedIncluded, libraryExcluded, docsIncluded] := rfl
  have hsecond : layeredRules.rules =
      [docsExcluded] ++ generatedIncluded :: [libraryExcluded, docsIncluded] := rfl
  have hthird : layeredRules.rules =
      [docsExcluded, generatedIncluded] ++ libraryExcluded :: [docsIncluded] := rfl
  refine ⟨?_, ?_, hne, ?_⟩
  · obtain ⟨hleading, -, -⟩ := includes_remove hfirst rfl
    exact hleading rfl (by simp) rfl
  · obtain ⟨-, hshadowed, -⟩ := includes_remove hsecond rfl
    refine hshadowed ?_ rfl
    intro path hpath
    have hshorter : "lib/".toList <+: "lib/gen/".toList := ⟨"gen/".toList, rfl⟩
    have hlibrary : libraryExcluded.accepts path = true :=
      List.isPrefixOf_iff_prefix.mpr (hshorter.trans (List.isPrefixOf_iff_prefix.mp hpath))
    exact ⟨libraryExcluded, by simp, hlibrary⟩
  · obtain ⟨-, -, hdeciding⟩ := includes_remove hthird rfl
    exact hdeciding rfl _ hne

/-! ## (3) Swapping two rules -/

section

variable [Glob.Engine] {path : Text} {rules rules' before after : List Rule} {x y : Rule}

/-- Two rules in either order leave the same decision, unless both match and they are of opposite
signs. -/
theorem overwrite_comm_iff {included : Bool} :
    overwrite path (overwrite path included x) y = overwrite path (overwrite path included y) x ↔
      ¬ (x.accepts path = true ∧ y.accepts path = true ∧ x.negated ≠ y.negated) := by
  unfold overwrite
  cases x.accepts path <;> cases y.accepts path <;> cases x.negated <;> cases y.negated <;> simp

/-- Whether some rule includes does not depend on the order of the rules. -/
theorem hasInclusion_of_perm (h : rules.Perm rules') :
    (RuleSet.mk rules).hasInclusion = (RuleSet.mk rules').hasInclusion :=
  h.any_eq

/-- **Swapping two neighbours** changes the decision exactly if both match, they are of opposite signs and
no later rule matches. -/
theorem includes_swap_ne_iff :
    (RuleSet.mk (before ++ x :: y :: after)).includes path ≠
        (RuleSet.mk (before ++ y :: x :: after)).includes path ↔
      x.accepts path = true ∧ y.accepts path = true ∧ x.negated ≠ y.negated ∧
        ∀ r ∈ after, r.accepts path = false := by
  have hperm : (before ++ x :: y :: after).Perm (before ++ y :: x :: after) :=
    (List.Perm.swap y x after).append_left before
  rw [includes, includes, hasInclusion_of_perm hperm, List.foldl_append, List.foldl_append,
    List.foldl_cons, List.foldl_cons, List.foldl_cons, List.foldl_cons, ne_eq,
    foldl_overwrite_eq_iff, overwrite_comm_iff, not_or, not_not, and_assoc, and_assoc]
  simp

/-! ## (4) Permuting rules -/

/-- **The place of the rule that decides**: the rule there matches, and none at a later place does. -/
structure DecidesAt (rules : List Rule) (path : Text) (i : Fin rules.length) : Prop where
  accepts : (rules.get i).accepts path = true
  later : ∀ j, i < j → ¬ (rules.get j).accepts path = true

/-- Where some rule matches, one decides. -/
theorem exists_decidesAt (h : ∃ i, (rules.get i).accepts path = true) :
    ∃ i, DecidesAt rules path i := by
  obtain ⟨i, hi, hlast⟩ := wellFounded_gt.has_min {i | (rules.get i).accepts path = true} h
  exact ⟨i, hi, fun j hij hj => hlast j hj hij⟩

/-- No rule matches behind the one that decides. -/
theorem DecidesAt.le {i j : Fin rules.length} (h : DecidesAt rules path i)
    (hj : (rules.get j).accepts path = true) : j ≤ i :=
  not_lt.mp fun hij => h.later j hij hj

/-- The rule that decides is the last one to overwrite the decision. -/
theorem DecidesAt.foldl_overwrite {i : Fin rules.length} (h : DecidesAt rules path i)
    (included : Bool) : rules.foldl (overwrite path) included = !(rules.get i).negated := by
  have hcut : rules = rules.take i ++ rules.get i :: rules.drop (i + 1) := by simp
  have hafter : ∀ r ∈ rules.drop (i + 1), r.accepts path = false := by
    intro r hr
    obtain ⟨k, hk, rfl⟩ := List.mem_iff_getElem.mp hr
    rw [List.length_drop] at hk
    have hlater : i < ⟨i + 1 + k, by omega⟩ := Fin.lt_def.mpr (by show i.val < i.val + 1 + k; omega)
    rw [List.getElem_drop, ← Bool.not_eq_true]
    exact h.later _ hlater
  calc rules.foldl (overwrite path) included
      = (rules.take i ++ rules.get i :: rules.drop (i + 1)).foldl (overwrite path) included := by
        rw [← hcut]
    _ = overwrite path ((rules.take i).foldl (overwrite path) included) (rules.get i) := by
        rw [List.foldl_append, List.foldl_cons, foldl_overwrite_of_none hafter]
    _ = !(rules.get i).negated := by rw [overwrite, if_pos h.accepts]

/-- **A rearrangement of rules**: the rule at place `i` of the first list stands at place `σ i` of the
second one. -/
def Rearranges (rules rules' : List Rule) (σ : Fin rules.length ≃ Fin rules'.length) : Prop :=
  ∀ i, rules'.get (σ i) = rules.get i

/-- A permutation moves every rule to some place. -/
theorem exists_rearranges (h : rules.Perm rules') : ∃ σ, Rearranges rules rules' σ := by
  classical
  let σ : Fin rules.length ≃ Fin rules'.length :=
    ⟨h.idxBij, h.symm.idxBij, h.idxBij_rightInverse_idxBij_symm, h.idxBij_leftInverse_idxBij_symm⟩
  exact ⟨σ, fun i => h.getElem_idxBij_eq_getElem i⟩

/-- **Permuting rules** changes the decision about a path only by changing the order of two rules of
opposite signs that match the path. -/
theorem inverted_of_includes_ne (h : rules.Perm rules')
    {σ : Fin rules.length ≃ Fin rules'.length} (hσ : Rearranges rules rules' σ)
    (hne : (RuleSet.mk rules).includes path ≠ (RuleSet.mk rules').includes path) :
    ∃ i j, i < j ∧ σ j < σ i ∧ (rules.get i).accepts path = true ∧
      (rules.get j).accepts path = true ∧ (rules.get i).negated ≠ (rules.get j).negated := by
  rw [includes, includes, hasInclusion_of_perm h] at hne
  by_cases hmatch : ∃ i, (rules.get i).accepts path = true
  · obtain ⟨last, hlast⟩ := exists_decidesAt hmatch
    have hmatch' : ∃ k, (rules'.get k).accepts path = true :=
      ⟨σ last, by rw [hσ]; exact hlast.accepts⟩
    -- the rule that decides in the new list decides nothing in the old one, so it stood further before
    obtain ⟨last', hlast'⟩ := exists_decidesAt hmatch'
    obtain ⟨i, rfl⟩ := σ.surjective last'
    have hi : (rules.get i).accepts path = true := by
      rw [← hσ]
      exact hlast'.accepts
    have hlastMoved : (rules'.get (σ last)).accepts path = true := by
      rw [hσ]
      exact hlast.accepts
    have hsigns : (rules.get i).negated ≠ (rules.get last).negated := by
      intro hsigns
      rw [hlast.foldl_overwrite, hlast'.foldl_overwrite, hσ, hsigns] at hne
      exact hne rfl
    have hplaces : i ≠ last := by
      rintro rfl
      exact hsigns rfl
    have hmoved : σ last ≠ σ i := fun heq => hplaces (σ.injective heq).symm
    exact ⟨i, last, lt_of_le_of_ne (hlast.le hi) hplaces,
      lt_of_le_of_ne (hlast'.le hlastMoved) hmoved, hi, hlast.accepts, hsigns⟩
  · -- no rule matches in either list
    have hnone : ∀ r ∈ rules, r.accepts path = false := by
      rw [List.forall_mem_iff_get]
      simpa using hmatch
    have hnone' : ∀ r ∈ rules', r.accepts path = false := fun r hr => hnone r (h.mem_iff.mpr hr)
    rw [foldl_overwrite_of_none hnone, foldl_overwrite_of_none hnone'] at hne
    exact absurd rfl hne

/-- **What the order of rules does.** Swapping two neighbours changes the decision about a path exactly if
both match it, they are of opposite signs and no later rule matches it. Permuting rules changes it only by
changing the order of two rules of opposite signs that match it, so rules of one sign may stand in any
order. -/
theorem includes_reorder (path : Text) :
    (∀ before x y after,
      (RuleSet.mk (before ++ x :: y :: after)).includes path ≠
          (RuleSet.mk (before ++ y :: x :: after)).includes path ↔
        x.accepts path = true ∧ y.accepts path = true ∧ x.negated ≠ y.negated ∧
          ∀ r ∈ after, r.accepts path = false) ∧
    (∀ rules rules', rules.Perm rules' →
      (∃ σ, Rearranges rules rules' σ) ∧
      ∀ σ, Rearranges rules rules' σ →
        (RuleSet.mk rules).includes path ≠ (RuleSet.mk rules').includes path →
        ∃ i j, i < j ∧ σ j < σ i ∧ (rules.get i).accepts path = true ∧
          (rules.get j).accepts path = true ∧ (rules.get i).negated ≠ (rules.get j).negated) ∧
    (∀ rules rules' negated, rules.Perm rules' → (∀ r ∈ rules, r.negated = negated) →
      (RuleSet.mk rules).includes path = (RuleSet.mk rules').includes path) := by
  refine ⟨fun before x y after => includes_swap_ne_iff, ?_, ?_⟩
  · intro rules rules' hperm
    exact ⟨exists_rearranges hperm, fun σ hσ hne => inverted_of_includes_ne hperm hσ hne⟩
  · intro rules rules' negated hperm hsign
    by_contra hne
    obtain ⟨σ, hσ⟩ := exists_rearranges hperm
    obtain ⟨i, j, -, -, -, -, hsigns⟩ := inverted_of_includes_ne hperm hσ hne
    apply hsigns
    rw [hsign _ (List.get_mem rules i), hsign _ (List.get_mem rules j)]

end

/-- The rule about `lib/gen` is of use behind the rule about `lib` only: swapping the two changes the
decision about a file under `lib/gen`, and these are the two rules whose order was changed. Two rules that
include may be swapped. -/
theorem includes_reorder_generated :
    (RuleSet.mk [generatedIncluded, libraryExcluded, docsIncluded]).includes "lib/gen/a".toList ≠
      (RuleSet.mk [libraryExcluded, generatedIncluded, docsIncluded]).includes "lib/gen/a".toList ∧
    (∃ σ, Rearranges [generatedIncluded, libraryExcluded, docsIncluded]
        [libraryExcluded, generatedIncluded, docsIncluded] σ ∧
      ∃ i j, i < j ∧ σ j < σ i ∧
        ([generatedIncluded, libraryExcluded, docsIncluded].get i).negated ≠
          ([generatedIncluded, libraryExcluded, docsIncluded].get j).negated) ∧
    (RuleSet.mk [generatedIncluded, docsIncluded]).includes "lib/gen/a".toList =
      (RuleSet.mk [docsIncluded, generatedIncluded]).includes "lib/gen/a".toList := by
  obtain ⟨hswap, hpermute, hsign⟩ := includes_reorder "lib/gen/a".toList
  have hne : (RuleSet.mk [generatedIncluded, libraryExcluded, docsIncluded]).includes
      "lib/gen/a".toList ≠
      (RuleSet.mk [libraryExcluded, generatedIncluded, docsIncluded]).includes
        "lib/gen/a".toList :=
    (hswap [] generatedIncluded libraryExcluded [docsIncluded]).mpr (by decide)
  refine ⟨hne, ?_, ?_⟩
  · obtain ⟨⟨σ, hσ⟩, hinverted⟩ := hpermute _ _ (List.Perm.swap libraryExcluded generatedIncluded _)
    obtain ⟨i, j, hij, hmoved, -, -, hsigns⟩ := hinverted σ hσ hne
    exact ⟨σ, hσ, i, j, hij, hmoved, hsigns⟩
  · exact hsign _ _ false (List.Perm.swap docsIncluded generatedIncluded []) (by decide)

end RuleSet

end ChangeGate
