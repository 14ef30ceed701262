import ChangeGate.Pattern.Entry
import ChangeGate.Proofs.Text.Blank
import ChangeGate.Proofs.Text.Lines

/-! # The items of a pattern list

**IsItem** says what a line of a pattern list holds without a look at how it is read: a dash, an entry
perhaps in quotes, and in the entry a sign and a glob, with white space around each of them. A line
that does not start with a dash holds nothing. So a text **lists** its items, each a sign and a glob,
and there is one such list, which is found by reading the entries and their signs
(**`lists_iff`**). -/

namespace ChangeGate.Pattern

open Text (Trims trims_iff)

/-! ## (1) Quotes -/

/-- The marks that quote. -/
def IsMark (c : Char) : Prop := c = '"' ∨ c = '\''

/-- **Unquoting**: one pair of equal marks around a text is dropped. -/
inductive Unquotes : Text → Text → Prop where
  /-- The text stands between two marks. -/
  | pair {mark : Char} (inner : Text) : IsMark mark → Unquotes (mark :: inner ++ [mark]) inner
  /-- A lone mark counts as both ends. -/
  | lone {mark : Char} : IsMark mark → Unquotes [mark] []
  /-- There is no mark that the text both starts and ends with. -/
  | bare {t : Text} :
      (∀ mark, IsMark mark → ¬ (t.head? = some mark ∧ t.getLast? = some mark)) → Unquotes t t

/-- A text that starts and ends with a mark is the mark alone, or stands between two of them. -/
theorem eq_of_ends {mark : Char} {t : Text} (hhead : t.head? = some mark)
    (hlast : t.getLast? = some mark) : t = [mark] ∨ t = mark :: (t.drop 1).dropLast ++ [mark] := by
  obtain ⟨rest, rfl⟩ := List.head?_eq_some_iff.mp hhead
  rw [List.drop_one, List.tail_cons]
  by_cases hrest : rest = []
  · exact .inl (by rw [hrest])
  · rw [List.getLast?_cons, List.getLast?_eq_some_getLast hrest] at hlast
    have hmark : rest.getLast hrest = mark := Option.some.inj hlast
    refine .inr ?_
    rw [List.cons_append, ← hmark, List.dropLast_concat_getLast hrest]

/-- Removing a mark from both ends succeeds exactly if it stands at both ends. -/
theorem unquote?_eq_some {mark : Char} {t inner : Text} :
    unquote? mark t = some inner ↔
      (t.head? = some mark ∧ t.getLast? = some mark) ∧ inner = (t.drop 1).dropLast := by
  unfold unquote?
  split <;> simp_all [eq_comm]

/-- Unquoting drops one pair of marks. -/
theorem unquotes_unquote (t : Text) : Unquotes t (unquote t) := by
  have hends : ∀ mark inner, IsMark mark → unquote? mark t = some inner → Unquotes t inner := by
    intro mark inner hmark hinner
    obtain ⟨⟨hhead, hlast⟩, rfl⟩ := unquote?_eq_some.mp hinner
    rcases eq_of_ends hhead hlast with rfl | heq
    · exact .lone hmark
    · have hpair := Unquotes.pair (t.drop 1).dropLast hmark
      rwa [← heq] at hpair
  unfold unquote
  cases hdouble : unquote? '"' t with
  | some inner => exact hends '"' inner (.inl rfl) hdouble
  | none =>
    cases hsingle : unquote? '\'' t with
    | some inner => exact hends '\'' inner (.inr rfl) hsingle
    | none =>
      refine .bare ?_
      rintro mark (rfl | rfl) hmark
      · rw [unquote?_eq_some.mpr ⟨hmark, rfl⟩] at hdouble
        exact absurd hdouble (by simp)
      · rw [unquote?_eq_some.mpr ⟨hmark, rfl⟩] at hsingle
        exact absurd hsingle (by simp)

/-- What a mark at both ends leaves of a text. -/
theorem unquote_of_ends {mark : Char} (hmark : IsMark mark) {t : Text}
    (hhead : t.head? = some mark) (hlast : t.getLast? = some mark) :
    unquote t = (t.drop 1).dropLast := by
  have hinner : unquote? mark t = some (t.drop 1).dropLast :=
    unquote?_eq_some.mpr ⟨⟨hhead, hlast⟩, rfl⟩
  unfold unquote
  rcases hmark with rfl | rfl
  · rw [hinner]
  · -- the text does not start with the other mark
    have hdouble : unquote? '"' t = none := by
      rw [unquote?, if_neg (by simp [hhead])]
    rw [hdouble, hinner]
    rfl

/-- **Unquoting leaves one text.** -/
theorem unquotes_iff {t inner : Text} : Unquotes t inner ↔ inner = unquote t := by
  constructor
  · intro h
    cases h with
    | @pair mark _ hmark =>
      rw [unquote_of_ends hmark rfl List.getLast?_concat, List.cons_append, List.drop_one,
        List.tail_cons, List.dropLast_concat]
    | lone hmark => rw [unquote_of_ends hmark rfl rfl]; rfl
    | bare hbare =>
      have hdouble : unquote? '"' t = none := by rw [unquote?, if_neg (hbare _ (.inl rfl))]
      have hsingle : unquote? '\'' t = none := by rw [unquote?, if_neg (hbare _ (.inr rfl))]
      rw [unquote, hdouble, hsingle]
      rfl
  · rintro rfl
    exact unquotes_unquote t

/-! ## (2) Signs -/

/-- **The sign and the glob of an entry**: an exclamation mark excludes. -/
inductive Signed : Text → Bool → Text → Prop where
  /-- The glob stands behind an exclamation mark. -/
  | excluding {entry rest glob : Text} :
      Trims entry ('!' :: rest) → Trims rest glob → Signed entry true glob
  /-- The entry is the glob. -/
  | including {entry glob : Text} :
      Trims entry glob → glob.head? ≠ some '!' → Signed entry false glob

/-- **An entry has one sign and one glob.** -/
theorem signed_iff {entry glob : Text} {negated : Bool} :
    Signed entry negated glob ↔ (negated, glob) = sign entry := by
  unfold sign
  constructor
  · intro h
    cases h with
    | excluding hentry hrest =>
      rw [← trims_iff.mp hentry, trims_iff.mp hrest]
      rfl
    | including hentry hglob =>
      rw [← trims_iff.mp hentry]
      split
      · exact absurd rfl hglob
      · rfl
  · intro h
    split at h
    · rename_i rest hentry
      obtain ⟨rfl, rfl⟩ := Prod.mk.inj h
      exact .excluding (trims_iff.mpr hentry.symm) (trims_iff.mpr rfl)
    · rename_i hentry
      obtain ⟨rfl, rfl⟩ := Prod.mk.inj h
      refine .including (trims_iff.mpr rfl) ?_
      intro hhead
      obtain ⟨rest, hrest⟩ := List.head?_eq_some_iff.mp hhead
      exact hentry rest hrest

/-! ## (3) Lines and lists -/

/-- **What a line holds** behind a dash: an entry, perhaps in quotes, with its sign and its glob. -/
def IsItem (line : Text) (negated : Bool) (glob : Text) : Prop :=
  ∃ marked item entry, Trims line ('-' :: marked) ∧ Trims marked item ∧ Unquotes item entry ∧
    Signed entry negated glob

/-- The items of some lines, in order. A line that does not start with a dash is skipped. -/
inductive Items : List Text → List (Bool × Text) → Prop where
  /-- There are no more lines. -/
  | nil : Items [] []
  /-- A line holds an item. -/
  | item {line glob : Text} {negated : Bool} {lines : List Text} {items : List (Bool × Text)} :
      IsItem line negated glob → Items lines items →
      Items (line :: lines) ((negated, glob) :: items)
  /-- A line holds none. -/
  | skip {line : Text} {lines : List Text} {items : List (Bool × Text)} :
      (∀ marked, ¬ Trims line ('-' :: marked)) → Items lines items → Items (line :: lines) items

/-- **The items that a text lists** are those of its lines. -/
def Lists (t : Text) (items : List (Bool × Text)) : Prop :=
  ∃ lines, Text.Lines t lines ∧ Items lines items

/-- Reading a line finds what it holds. -/
theorem isItem_iff {line glob : Text} {negated : Bool} :
    IsItem line negated glob ↔ Option.map sign ( entry? line) = some (negated, glob) := by
  unfold IsItem entry?
  constructor
  · rintro ⟨marked, item, entry, hline, hmarked, hitem, hentry⟩
    rw [← trims_iff.mp hline]
    show (some (unquote (Text.trim marked))).map sign = some (negated, glob)
    rw [← trims_iff.mp hmarked, ← unquotes_iff.mp hitem, Option.map_some, signed_iff.mp hentry]
  · intro h
    split at h
    · rename_i marked hline
      refine ⟨marked, _, _, trims_iff.mpr hline.symm, trims_iff.mpr rfl, unquotes_iff.mpr rfl, ?_⟩
      exact signed_iff.mpr (Option.some.inj h).symm
    · exact absurd h (by simp)

/-- Reading a line finds nothing exactly if it does not start with a dash. -/
theorem entry?_eq_none {line : Text} :
    entry? line = none ↔ ∀ marked, ¬ Trims line ('-' :: marked) := by
  unfold entry?
  constructor
  · intro h marked hline
    rw [← trims_iff.mp hline] at h
    exact absurd h (by simp)
  · intro h
    split
    · rename_i marked hline
      exact absurd (trims_iff.mpr hline.symm) (h marked)
    · rfl

/-- Reading line by line finds the items of the lines. -/
theorem items_iff {lines : List Text} {items : List (Bool × Text)} :
    Items lines items ↔ items = (lines.filterMap entry?).map sign := by
  constructor
  · intro h
    induction h with
    | nil => rfl
    | item hitem _ ih =>
      obtain ⟨entry, hentry, hsign⟩ := Option.map_eq_some_iff.mp (isItem_iff.mp hitem)
      rw [List.filterMap_cons_some hentry, List.map_cons, hsign, ih]
    | skip hskip _ ih => rw [List.filterMap_cons_none (entry?_eq_none.mpr hskip), ih]
  · rintro rfl
    induction lines with
    | nil => exact .nil
    | cons line lines ih =>
      cases hentry : entry? line with
      | none =>
        rw [List.filterMap_cons_none hentry]
        exact .skip (entry?_eq_none.mp hentry) ih
      | some entry =>
        rw [List.filterMap_cons_some hentry, List.map_cons]
        exact .item (isItem_iff.mpr (by rw [hentry]; rfl)) ih

/-- **A text lists its entries, signed.** -/
theorem lists_iff {t : Text} {items : List (Bool × Text)} :
    Lists t items ↔ items = (entries t).map sign := by
  constructor
  · rintro ⟨lines, hlines, hitems⟩
    obtain rfl := Text.lines_iff.mp hlines
    exact items_iff.mp hitems
  · rintro rfl
    exact ⟨Text.lines t, Text.lines_iff.mpr rfl, items_iff.mpr rfl⟩

end ChangeGate.Pattern
