import ChangeGate.Proofs.Pattern.Decision
import ChangeGate.Proofs.Pattern.Writing

/-! # Joining pattern lists

A pattern list is read line by line, so what a line says does not depend on the lines around it. The entries
of two texts with a line feed between them are those of the one text and then those of the other
(**`entries_joined`**), whatever the texts start and end with, and their rules are those of both
(**`ofText_append`**). A line may be ended in either way, for white space around an item is dropped
(**`entries_withReturns`**). -/

namespace ChangeGate

/-! ## (1) Ends of lines -/

namespace Text

/-- A text whose line feeds all have a carriage return before them, beside those that are there. -/
def withReturns (t : Text) : Text := t.flatMap fun c => if c = '\n' then ['\r', '\n'] else [c]

/-- A text without a line feed is left as it is. -/
theorem withReturns_of_not_mem {t : Text} (h : '\n' ∉ t) : withReturns t = t := by
  induction t with
  | nil => rfl
  | cons c t ih =>
    have hc : c ≠ '\n' := (List.ne_of_not_mem_cons h).symm
    have hrest : withReturns t = t := ih (List.not_mem_of_not_mem_cons h)
    rw [withReturns, List.flatMap_cons, if_neg hc, ← withReturns, hrest, List.singleton_append]

/-- The first line feed gets a carriage return. -/
theorem withReturns_append {front : Text} (h : '\n' ∉ front) (rest : Text) :
    withReturns (front ++ '\n' :: rest) = front ++ ['\r', '\n'] ++ withReturns rest := by
  have hfront : withReturns front = front := withReturns_of_not_mem h
  unfold withReturns at hfront ⊢
  rw [List.flatMap_append, List.flatMap_cons, if_pos rfl, hfront, List.append_assoc]

end Text

/-! ## (2) Entries -/

namespace Pattern

/-- A line that is ended by a line feed adds its item. -/
theorem entries_of_feed {line : Text} (h : '\n' ∉ line) (more : Text) :
    entries (line ++ '\n' :: more) = ( entry? line).toList ++ entries more := by
  have hending := entries_of_ending h (.inl rfl) more
  rwa [List.append_assoc, List.singleton_append] at hending

/-- **The entries of two texts in a row** are those of the first text and then those of the second: induction
on the line feeds of the first text. -/
theorem entries_joined (a b : Text) : entries (a ++ '\n' :: b) = entries a ++ entries b := by
  induction a using Text.separatorInduction '\n' with
  | last line hline => rw [entries_of_feed hline, entries_of_line hline]
  | next line rest hline ih =>
    have hrest : entries (line ++ '\n' :: rest ++ '\n' :: b) =
        ( entry? line).toList ++ entries (rest ++ '\n' :: b) := by
      rw [List.append_assoc, List.cons_append, entries_of_feed hline]
    rw [hrest, ih, entries_of_feed hline, List.append_assoc]

/-- **Carriage returns before the line feeds** change no entry: induction on the line feeds. -/
theorem entries_withReturns (t : Text) : entries (Text.withReturns t) = entries t := by
  induction t using Text.separatorInduction '\n' with
  | last line hline => rw [Text.withReturns_of_not_mem hline]
  | next line rest hline ih =>
    -- both ways to end a line leave the same item, which is read without the white space around it
    rw [Text.withReturns_append hline, entries_of_ending hline (.inr rfl), entries_of_feed hline, ih]

end Pattern

/-! ## (3) Rules -/

namespace RuleSet

section

variable [Glob.Engine]

/-- The rules of two rule sets, one behind the other. -/
def join (front back : RuleSet) : RuleSet := ⟨front.rules ++ back.rules⟩

variable (front back : RuleSet)

@[simp] theorem rules_join : (front.join back).rules = front.rules ++ back.rules := rfl

/-- A rule of either set includes. -/
theorem hasInclusion_join :
    (front.join back).hasInclusion = (front.hasInclusion || back.hasInclusion) := by
  rw [hasInclusion, rules_join, List.any_append, hasInclusion, hasInclusion]

/-- Entries in a row are compiled one by one, and the first failure is the failure of all. -/
theorem ofEntries_append (entries more : List Text) :
    ofEntries (entries ++ more) =
      (ofEntries entries).bind fun front => (ofEntries more).map front.join := by
  unfold ofEntries
  rw [List.mapM_append]
  cases entries.mapM Rule.ofEntry with
  | error e => rfl
  | ok rules => cases more.mapM Rule.ofEntry <;> rfl

/-- **The rules of two texts in a row** are those of both, and the failure of the first text comes first. -/
theorem ofText_append (a b : Text) :
    ofText (a ++ '\n' :: b) = (ofText a).bind fun front => (ofText b).map front.join := by
  rw [ofText, Pattern.entries_joined, ofEntries_append, ← ofText, ← ofText]

/-- **Pattern lists are read line by line.** Two texts with a line feed between them have the entries of the
first one and then those of the second; if both can be compiled, so can the joined text, its rules are those
of both in order, and it has an inclusion exactly if one of them has. A carriage return before every line
feed changes neither the entries nor the rules. -/
theorem ofText_joined (a b t : Text) :
    Pattern.entries (a ++ '\n' :: b) = Pattern.entries a ++ Pattern.entries b ∧
    (∀ front back, ofText a = .ok front → ofText b = .ok back →
      ∃ rs, ofText (a ++ '\n' :: b) = .ok rs ∧ rs.rules = front.rules ++ back.rules ∧
        rs.hasInclusion = (front.hasInclusion || back.hasInclusion)) ∧
    Pattern.entries (Text.withReturns t) = Pattern.entries t ∧
    ofText (Text.withReturns t) = ofText t := by
  refine ⟨Pattern.entries_joined a b, ?_, Pattern.entries_withReturns t, ?_⟩
  · intro front back hfront hback
    refine ⟨front.join back, ?_, rfl, hasInclusion_join front back⟩
    rw [ofText_append, hfront, hback]
    rfl
  · rw [ofText, Pattern.entries_withReturns, ← ofText]

end

/-- A text that ends in a carriage return, with white space of other scripts around its items. -/
def exclusionLines : Text := "\u2003-\u00a0'!docs/**'\r\n- '!lib/**'\r".toList

/-- A text that starts with an empty line and ends with a line feed. -/
def inclusionLines : Text := "\n# more\r\n\t- src/?\n".toList

/-- Each text is read as if it stood alone: the first part only excludes, and the joined text has an
inclusion. -/
theorem ofText_joined_returns :
    Pattern.entries (exclusionLines ++ '\n' :: inclusionLines) =
      ["!docs/**".toList, "!lib/**".toList, "src/?".toList] ∧
    (∃ rs, ofText (exclusionLines ++ '\n' :: inclusionLines) = .ok rs ∧
      rs.rules.map Rule.item =
        [(true, "docs/**".toList), (true, "lib/**".toList), (false, "src/?".toList)] ∧
      rs.hasInclusion = true) ∧
    Pattern.entries (Text.withReturns inclusionLines) = Pattern.entries inclusionLines := by
  obtain ⟨hentries, hrules, hreturns, -⟩ :=
    ofText_joined exclusionLines inclusionLines inclusionLines
  have hfront : ofText exclusionLines = .ok
      ⟨[⟨"docs/**".toList, true, .lead "docs/".toList, rfl⟩,
        ⟨"lib/**".toList, true, .lead "lib/".toList, rfl⟩]⟩ := rfl
  have hback : ofText inclusionLines = .ok
      ⟨[⟨"src/?".toList, false, .general "src/?".toList, rfl⟩]⟩ := rfl
  obtain ⟨rs, hjoined, hall, hinclusion⟩ := hrules _ _ hfront hback
  refine ⟨hentries, ⟨rs, hjoined, ?_, hinclusion⟩, hreturns⟩
  rw [hall]
  rfl

end RuleSet

end ChangeGate
