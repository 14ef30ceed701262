import ChangeGate.Proofs.Pattern.Items
import ChangeGate.Proofs.Program.FileList

/-! # Writing pattern lists

**Writes** says in how many ways a list of patterns can be written down: one to a line behind a dash, bare or
in a pair of marks, with white space around all of this, between lines that hold no item, and with either
ending at each line. Reading depends on the lines only, one by one (**`entries_of_ending`**), and a line of
a pattern is read as that pattern whatever it holds (**`Wraps.entry?_eq`**). So every way to write some
patterns is read as these patterns (**`entries_of_writes`**). -/

namespace ChangeGate.Pattern

open Program (IsPadding IsEnding)
open Text (Tight trim)

/-! ## (1) Reading line by line -/

/-- The item of a line follows its first dash. -/
theorem entry?_dash {lead : Text} (hlead : Text.blank lead = true) (rest : Text) :
    entry? (lead ++ '-' :: rest) = some (unquote (trim rest)) := by
  have htrim : trim (lead ++ '-' :: rest) = '-' :: Text.trimEnd rest := by
    rw [trim, Text.trimStart_append hlead, ← trim, Text.trim_cons (by decide)]
  rw [ entry?, htrim]
  show some (unquote (trim (Text.trimEnd rest))) = _
  rw [Text.trim_trimEnd]

/-- A line that starts with no dash holds no item. -/
theorem entry?_of_head {line : Text} (h : (trim line).head? ≠ some '-') : entry? line = none := by
  unfold entry?
  split
  · rename_i item hitem
    rw [hitem] at h
    exact absurd rfl h
  · rfl

/-- Only what is left of a line is read. -/
theorem entry?_congr {line line' : Text} (h : trim line = trim line') : entry? line = entry? line' := by
  rw [ entry?, h, entry?]

/-- The entries of a text are those of its lines. -/
theorem entries_eq_flatMap (t : Text) :
    entries t = (Text.lines t).flatMap fun line => ( entry? line).toList :=
  List.filterMap_eq_flatMap_toList _ _

/-- A text of one line holds the item of this line. -/
theorem entries_of_line {line : Text} (h : '\n' ∉ line) : entries line = ( entry? line).toList := by
  rw [entries_eq_flatMap, Text.lines_of_not_mem h]
  split
  · rename_i hnil
    rw [hnil]
    rfl
  · rw [List.flatMap_singleton]

/-- **The first line of a text** adds its item, however the line is ended. -/
theorem entries_of_ending {line ending : Text} (hline : '\n' ∉ line) (hending : IsEnding ending)
    (more : Text) : entries (line ++ ending ++ more) = ( entry? line).toList ++ entries more := by
  obtain ⟨first, hlines, hfirst⟩ := Program.lines_of_ending hline hending more
  rw [entries_eq_flatMap, hlines, List.flatMap_cons, ← entries_eq_flatMap, entry?_congr hfirst]

/-! ## (2) Patterns in their lines -/

/-- **An item for a pattern**: the pattern between two equal marks, or the pattern itself if it has no white
space at its ends and does not both start and end with one of the marks. -/
inductive Wraps : Text → Text → Prop where
  /-- The pattern is quoted, whatever it holds. -/
  | quoted {mark : Char} (pattern : Text) : IsMark mark → Wraps (mark :: pattern ++ [mark]) pattern
  /-- The pattern is bare. -/
  | bare {pattern : Text} : trim pattern = pattern →
      (∀ mark, IsMark mark → ¬ (pattern.head? = some mark ∧ pattern.getLast? = some mark)) →
      Wraps pattern pattern

/-- A mark is no white space. -/
theorem IsMark.isBlank {mark : Char} (h : IsMark mark) : Text.isBlank mark = false := by
  rcases h with rfl | rfl <;> decide

variable {item pattern : Text}

/-- An item has no white space at its ends. -/
theorem Wraps.tight (h : Wraps item pattern) : Tight item := by
  cases h with
  | @quoted mark _ hmark =>
    constructor
    · intro c hc
      obtain rfl : mark = c := Option.some.inj hc
      exact hmark.isBlank
    · intro c hc
      rw [List.getLast?_concat] at hc
      obtain rfl : mark = c := Option.some.inj hc
      exact hmark.isBlank
  | bare htrim _ => exact Text.tight_iff.mpr htrim

/-- Unquoting an item gives the pattern back. -/
theorem Wraps.unquote_eq (h : Wraps item pattern) : unquote item = pattern := by
  cases h with
  | quoted _ hmark => exact (unquotes_iff.mp (.pair _ hmark)).symm
  | bare _ hends => exact (unquotes_iff.mp (.bare hends)).symm

/-- **A line with an item** for a pattern is read as this pattern. -/
theorem Wraps.entry?_eq (h : Wraps item pattern) {lead gap tail : Text} (hlead : IsPadding lead)
    (hgap : IsPadding gap) (htail : IsPadding tail) :
    entry? (lead ++ '-' :: (gap ++ item ++ tail)) = some pattern := by
  rw [entry?_dash hlead.blank, Text.trim_append_append hgap.blank htail.blank, h.tight.trim_eq,
    h.unquote_eq]

/-- A quoted or bare pattern spans no more lines than the pattern. -/
theorem Wraps.feed (h : Wraps item pattern) (hfeed : '\n' ∉ pattern) : '\n' ∉ item := by
  cases h with
  | @quoted mark _ hmark =>
    have hne : '\n' ≠ mark := by
      rcases hmark with rfl | rfl <;> decide
    simp [hne, hfeed]
  | bare _ _ => exact hfeed

/-- **A line**, and the patterns that stand in it: there is one behind a dash, and none in a line that does
not start with a dash. -/
inductive IsLine : Text → List Text → Prop where
  /-- The line has an item. -/
  | item {lead gap item tail pattern : Text} : IsPadding lead → IsPadding gap → IsPadding tail →
      '\n' ∉ pattern → Wraps item pattern →
      IsLine (lead ++ '-' :: (gap ++ item ++ tail)) [pattern]
  /-- The line has none. -/
  | noise {line : Text} : '\n' ∉ line → (trim line).head? ≠ some '-' → IsLine line []

/-- **The texts that some patterns are written as.** -/
inductive Writes : Text → List Text → Prop where
  /-- The last line is not ended. -/
  | last {line : Text} {patterns : List Text} : IsLine line patterns → Writes line patterns
  /-- A line is ended. -/
  | line {line ending more : Text} {patterns others : List Text} : IsLine line patterns →
      IsEnding ending → Writes more others → Writes (line ++ ending ++ more) (patterns ++ others)

variable {line : Text} {patterns : List Text}

/-- A line is a single line. -/
theorem IsLine.feed (h : IsLine line patterns) : '\n' ∉ line := by
  cases h with
  | item hlead hgap htail hfeed hwraps =>
    have hitem := hwraps.feed hfeed
    simp [hlead.feed, hgap.feed, htail.feed, hitem]
  | noise hfeed _ => exact hfeed

/-- A line is read as the patterns that stand in it. -/
theorem IsLine.entry?_toList (h : IsLine line patterns) : ( entry? line).toList = patterns := by
  cases h with
  | item hlead hgap htail _ hwraps => rw [hwraps.entry?_eq hlead hgap htail, Option.toList_some]
  | noise _ hhead => rw [entry?_of_head hhead, Option.toList_none]

/-- Reading what was written gives the patterns back: induction on the lines. -/
theorem Writes.entries_eq {t : Text} (h : Writes t patterns) : entries t = patterns := by
  induction h with
  | last hline => rw [entries_of_line hline.feed, hline.entry?_toList]
  | line hline hending _ ih => rw [entries_of_ending hline.feed hending, hline.entry?_toList, ih]

/-- Patterns of one line each can be written, for each of them can be quoted. -/
theorem exists_writes (h : ∀ pattern ∈ patterns, '\n' ∉ pattern) : ∃ t, Writes t patterns := by
  have hnone : IsPadding [] := ⟨rfl, by simp⟩
  induction patterns with
  | nil => exact ⟨[], .last (.noise (by simp) (by simp))⟩
  | cons pattern patterns ih =>
    obtain ⟨more, hmore⟩ := ih fun other hother => h other (List.mem_cons_of_mem _ hother)
    have hline : IsLine ([] ++ '-' :: ([] ++ ('"' :: pattern ++ ['"']) ++ [])) [pattern] :=
      .item hnone hnone hnone (h pattern List.mem_cons_self) (.quoted pattern (.inl rfl))
    exact ⟨_, .line hline (.inl rfl) hmore⟩

/-- **Writing and then reading gives the patterns back**, in their order. Patterns without a line feed can be
written, and whichever way is taken for each of them and whatever lines without an item stand between them,
exactly these patterns are read. -/
theorem entries_of_writes (h : ∀ pattern ∈ patterns, '\n' ∉ pattern) :
    (∃ t, Writes t patterns) ∧ ∀ t, Writes t patterns → entries t = patterns :=
  ⟨exists_writes h, fun _ ht => ht.entries_eq⟩

/-- Three patterns that hold marks, white space at an end, a sign, a dash and a backslash. -/
def awkwardPatterns : List Text := ["!a ".toList, "\"b\"".toList, "- c\\d".toList]

/-- One way to write them: the first two in different marks, the last one bare and in a line that is not
ended. -/
def awkwardText : Text := "files:\r\n\t- \"!a \" \n-'\"b\"'\r\n\n  -  - c\\d".toList

/-- All of it is read back as it is. -/
theorem entries_of_writes_awkward :
    (∀ pattern ∈ awkwardPatterns, '\n' ∉ pattern) ∧ Writes awkwardText awkwardPatterns ∧
      entries awkwardText = awkwardPatterns := by
  have hfeed : ∀ pattern ∈ awkwardPatterns, '\n' ∉ pattern := by decide
  have hnone : IsPadding [] := ⟨rfl, by decide⟩
  have htab : IsPadding "\t".toList := ⟨rfl, by decide⟩
  have hspace : IsPadding " ".toList := ⟨rfl, by decide⟩
  have hspaces : IsPadding "  ".toList := ⟨rfl, by decide⟩
  have htitle : IsLine "files:".toList [] := .noise (by decide) (by decide)
  have hdouble : IsLine
      ("\t".toList ++ '-' :: (" ".toList ++ ('"' :: "!a ".toList ++ ['"']) ++ " ".toList))
      ["!a ".toList] :=
    .item htab hspace hspace (by decide) (.quoted _ (.inl rfl))
  have hsingle : IsLine ([] ++ '-' :: ([] ++ ('\'' :: "\"b\"".toList ++ ['\'']) ++ []))
      ["\"b\"".toList] :=
    .item hnone hnone hnone (by decide) (.quoted _ (.inr rfl))
  have hempty : IsLine [] [] := .noise (by decide) (by decide)
  have hbare : IsLine ("  ".toList ++ '-' :: ("  ".toList ++ "- c\\d".toList ++ []))
      ["- c\\d".toList] := by
    refine .item hspaces hspaces hnone (by decide) (.bare (by decide) ?_)
    rintro mark (rfl | rfl) <;> decide
  have hwritten : Writes awkwardText awkwardPatterns :=
    .line htitle (.inr rfl) (.line hdouble (.inl rfl) (.line hsingle (.inr rfl)
      (.line hempty (.inl rfl) (.last hbare))))
  exact ⟨hfeed, hwritten, (entries_of_writes hfeed).2 _ hwritten⟩

end ChangeGate.Pattern
