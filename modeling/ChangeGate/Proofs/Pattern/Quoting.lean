import ChangeGate.Proofs.Pattern.IncludedSet
import ChangeGate.Proofs.Pattern.Writing

/-! # Quoted and bare patterns

A pattern may stand bare in its line or between two marks. The entries differ, for marks keep the white space
at the ends of the pattern and a bare pattern loses it. The sign and the glob are the same, because both are
read without white space around them (**`sign_trim`**), and so is the rule. Only a pattern that has marks of
its own at its ends is read differently when it is bare, for then it loses them. So all ways to write one
pattern have one rule or one failure (**`ofText_spellings`**). -/

namespace ChangeGate

/-! ## (1) The ways to write a pattern -/

namespace Pattern

/-- A pattern as it is, and between either of the marks. -/
def spellings (s : Text) : List Text := [s, '"' :: s ++ ['"'], '\'' :: s ++ ['\'']]

/-- A line for an item. -/
def itemLine (item : Text) : Text := '-' :: ' ' :: item

/-- A pattern that is trimmed first has the same sign and the same glob. -/
theorem sign_trim (s : Text) : sign (Text.trim s) = sign s := by
  have htrim : Text.trim (Text.trim s) = Text.trim s := (Text.tight_trim s).trim_eq
  rw [sign, htrim, sign]

variable {s : Text}

/-- A bare pattern is read without the white space at its ends, if this leaves no mark at both of them. -/
theorem entry?_bare
    (hends : ∀ mark, IsMark mark →
      ¬ ((Text.trim s).head? = some mark ∧ (Text.trim s).getLast? = some mark)) :
    entry? (itemLine s) = some (Text.trim s) := by
  have hspace : Text.trim (' ' :: s) = Text.trim s := by
    rw [Text.trim, Text.trimStart_cons, if_pos (by decide), Text.trim]
  have hbare : unquote (Text.trim s) = Text.trim s := (unquotes_iff.mp (.bare hends)).symm
  have hdash : entry? (itemLine s) = some (unquote (Text.trim (' ' :: s))) :=
    entry?_dash Text.blank_nil (' ' :: s)
  rw [hdash, hspace, hbare]

/-- A pattern between two marks is read as it is. -/
theorem entry?_marked {mark : Char} (hmark : IsMark mark) :
    entry? (itemLine (mark :: s ++ [mark])) = some s := by
  have hnone : Program.IsPadding [] := ⟨rfl, by simp⟩
  have hspace : Program.IsPadding [' '] := ⟨rfl, by decide⟩
  have hentry := (Wraps.quoted s hmark).entry?_eq hnone hspace hnone
  rwa [List.append_nil] at hentry

/-- Marks and the space behind the dash hold no line feed. -/
theorem feed_itemLine {item : Text} (hfeed : '\n' ∉ s) (hitem : item ∈ spellings s) :
    '\n' ∉ itemLine item := by
  simp only [spellings, List.mem_cons, List.not_mem_nil, or_false] at hitem
  rcases hitem with rfl | rfl | rfl <;> simp [itemLine, hfeed]

/-- **All ways to write a pattern have one sign and one glob**, though the entries differ. -/
theorem entries_spellings (hfeed : '\n' ∉ s)
    (hends : ∀ mark, IsMark mark →
      ¬ ((Text.trim s).head? = some mark ∧ (Text.trim s).getLast? = some mark))
    {item : Text} (hitem : item ∈ spellings s) :
    ∃ entry, entries (itemLine item) = [entry] ∧ sign entry = sign s := by
  rw [entries_of_line (feed_itemLine hfeed hitem)]
  simp only [spellings, List.mem_cons, List.not_mem_nil, or_false] at hitem
  rcases hitem with rfl | rfl | rfl
  · rw [entry?_bare hends]
    exact ⟨Text.trim item, rfl, sign_trim item⟩
  · rw [entry?_marked (.inl rfl)]
    exact ⟨s, rfl, rfl⟩
  · rw [entry?_marked (.inr rfl)]
    exact ⟨s, rfl, rfl⟩

end Pattern

/-! ## (2) The rule of a pattern -/

open Pattern (sign spellings itemLine IsMark)

section

variable [Glob.Engine]

/-- Only the sign and the glob of an entry are compiled. -/
theorem Rule.ofEntry_congr {entry other : Text} (h : sign entry = sign other) :
    ofEntry entry = ofEntry other := by
  rw [ofEntry, h, ofEntry]

/-- A failure to compile an entry tells its glob. -/
theorem Rule.glob_of_ofEntry {entry : Text} {e : Glob.TooLarge} (h : ofEntry entry = .error e) :
    e.glob = (sign entry).2 := by
  unfold ofEntry ofGlob at h
  split at h
  · exact absurd h (by simp)
  · rename_i e' he'
    obtain rfl := Except.error.inj h
    exact Glob.glob_of_compile he'

namespace RuleSet

/-- A text with one entry has the rule of this entry, or fails as it does. -/
theorem ofText_of_entry {t entry : Text} (h : Pattern.entries t = [entry]) :
    ofText t = (Rule.ofEntry entry).map fun r => ⟨[r]⟩ := by
  rw [ofText, h, ofEntries, List.mapM_cons, List.mapM_nil]
  cases Rule.ofEntry entry <;> rfl

/-- A single rule includes the paths of its glob, or all other paths. -/
theorem includes_single (r : Rule) (path : Text) :
    (RuleSet.mk [r]).includes path = true ↔ (r.item.1 = false ↔ path ∈ Glob.paths r.item.2) := by
  have hitems : [r].map Rule.item = [r.item.2].map (Prod.mk r.item.1) := rfl
  rw [← mem_includedSet, mem_includedSet_of_sign (List.cons_ne_nil _ _) hitems]
  simp

/-- **Quoted and bare patterns are compiled alike.** If a pattern of one line is not left with the same mark
at both ends when it is trimmed, then the texts that hold it bare and between either of the marks all have
the same single rule, with the sign and the glob of the pattern, and so decide every path alike; or all of
them fail in the same way. -/
theorem ofText_spellings {s : Text} (hfeed : '\n' ∉ s)
    (hends : ∀ mark, IsMark mark →
      ¬ ((Text.trim s).head? = some mark ∧ (Text.trim s).getLast? = some mark)) :
    (∃ r, r.item = sign s ∧ (∀ item ∈ spellings s, ofText (itemLine item) = .ok ⟨[r]⟩) ∧
      ∀ path, (RuleSet.mk [r]).includes path = true ↔
        ((sign s).1 = false ↔ path ∈ Glob.paths (sign s).2)) ∨
    ∃ e, e.glob = (sign s).2 ∧ ∀ item ∈ spellings s, ofText (itemLine item) = .error e := by
  have hall : ∀ item ∈ spellings s,
      ofText (itemLine item) = (Rule.ofEntry s).map fun r => ⟨[r]⟩ := by
    intro item hitem
    obtain ⟨entry, hentries, hsign⟩ := Pattern.entries_spellings hfeed hends hitem
    rw [ofText_of_entry hentries, Rule.ofEntry_congr hsign]
  cases hrule : Rule.ofEntry s with
  | ok r =>
    have hitem : r.item = sign s := Rule.item_of_ofEntry hrule
    refine .inl ⟨r, hitem, ?_, ?_⟩
    · intro item hmem
      rw [hall item hmem, hrule]
      rfl
    · intro path
      rw [includes_single, hitem]
  | error e =>
    refine .inr ⟨e, Rule.glob_of_ofEntry hrule, ?_⟩
    intro item hmem
    rw [hall item hmem, hrule]
    rfl

end RuleSet

end

namespace RuleSet

/-- A pattern that excludes, with white space at its ends and behind the sign, and with marks inside of it and
at one end. -/
def looseExclusion : Text := " !\t it's/\"new\"/*\" ".toList

/-- Bare and quoted it is the same exclusion. -/
theorem ofText_spellings_loose :
    '\n' ∉ looseExclusion ∧
    (∀ mark, IsMark mark → ¬ ((Text.trim looseExclusion).head? = some mark ∧
      (Text.trim looseExclusion).getLast? = some mark)) ∧
    ∃ r, r.item = (true, "it's/\"new\"/*\"".toList) ∧
      ofText "-  !\t it's/\"new\"/*\" ".toList = .ok ⟨[r]⟩ ∧
      ofText "- \" !\t it's/\"new\"/*\" \"".toList = .ok ⟨[r]⟩ ∧
      ofText "- ' !\t it's/\"new\"/*\" '".toList = .ok ⟨[r]⟩ := by
  have hfeed : '\n' ∉ looseExclusion := by decide
  have hends : ∀ mark, IsMark mark → ¬ ((Text.trim looseExclusion).head? = some mark ∧
      (Text.trim looseExclusion).getLast? = some mark) := by
    rintro mark (rfl | rfl) <;> decide
  refine ⟨hfeed, hends, ?_⟩
  rcases ofText_spellings hfeed hends with ⟨r, hitem, hall, -⟩ | ⟨e, -, hall⟩
  · refine ⟨r, hitem, hall _ (by decide), hall _ (by decide), hall _ (by decide)⟩
  · have hbare : ofText (itemLine looseExclusion) = .ok
        ⟨[⟨"it's/\"new\"/*\"".toList, true, .general "it's/\"new\"/*\"".toList, rfl⟩]⟩ := rfl
    have hfails := hall looseExclusion (by decide)
    rw [hbare] at hfails
    exact absurd hfails (by simp)

end RuleSet

end ChangeGate
