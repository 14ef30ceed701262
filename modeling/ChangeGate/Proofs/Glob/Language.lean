import ChangeGate.Glob.Matcher
import Mathlib.Data.List.Infix
import Mathlib.Data.List.Forall2

/-! # The language of a glob

**Reads** says what it means to read a glob from left to right, two adjacent stars being taken
together as early as possible; `reads_iff` makes `tokens` the only such reading. The language
**Matches** of a token list is then opened in three ways: by cutting a path into pieces
(`matches_iff_pieces`), by splitting the token list (`matches_append`), and by the first character of
a path (`matches_cons_cons`). The last one is the step of `row`, so by induction on the path and then
on the tokens the table of all suffixes is right (`table_spec`), and so is `matchesTokens`. -/

namespace ChangeGate.Glob

/-! ## (1) Reading a glob -/

/-- **Reading a glob from left to right.** A star that another star follows is taken together with it;
a star is single only if what follows does not start with a star. -/
inductive Reads : Text → List Token → Prop where
  /-- Nothing is left to read. -/
  | nil : Reads [] []
  /-- Two adjacent stars. -/
  | any {rest : Text} {ts : List Token} : Reads rest ts → Reads ('*' :: '*' :: rest) (.any :: ts)
  /-- A star that no star follows. -/
  | segment {rest : Text} {ts : List Token} :
      rest.head? ≠ some '*' → Reads rest ts → Reads ('*' :: rest) (.segment :: ts)
  /-- A question mark. -/
  | one {rest : Text} {ts : List Token} : Reads rest ts → Reads ('?' :: rest) (.one :: ts)
  /-- A character that is no wildcard. -/
  | literal {c : Char} {rest : Text} {ts : List Token} :
      c ≠ '*' → c ≠ '?' → Reads rest ts → Reads (c :: rest) (.literal c :: ts)

@[simp] theorem tokens_nil : tokens [] = [] := rfl

@[simp] theorem tokens_stars (rest : Text) : tokens ('*' :: '*' :: rest) = .any :: tokens rest := rfl

@[simp] theorem tokens_question (rest : Text) : tokens ('?' :: rest) = .one :: tokens rest := by
  simp [tokens]

/-- A star that no star follows is a token of its own. -/
theorem tokens_star {rest : Text} (h : rest.head? ≠ some '*') :
    tokens ('*' :: rest) = .segment :: tokens rest := by
  rw [tokens]
  · rfl
  · rintro tail - rfl
    exact h rfl

/-- A character that is no wildcard is a token of its own. -/
theorem tokens_literal {c : Char} (hs : c ≠ '*') (hq : c ≠ '?') (rest : Text) :
    tokens (c :: rest) = .literal c :: tokens rest := by
  rw [tokens]
  · simp [hs, hq]
  · rintro tail rfl -
    exact hs rfl

/-- `tokens` is a reading of every glob. -/
theorem reads_tokens (g : Text) : Reads g (tokens g) := by
  induction g using tokens.induct with
  | case1 => exact .nil
  | case2 rest ih => exact .any ih
  | case3 c rest h ih =>
    by_cases hs : c = '*'
    · subst hs
      have hrest : rest.head? ≠ some '*' := by
        intro hhead
        obtain ⟨tail, rfl⟩ := List.head?_eq_some_iff.mp hhead
        exact h tail rfl rfl
      rw [tokens_star hrest]
      exact .segment hrest ih
    · by_cases hq : c = '?'
      · subst hq
        rw [tokens_question]
        exact .one ih
      · rw [tokens_literal hs hq]
        exact .literal hs hq ih

/-- Every reading of a glob is the one that `tokens` finds. -/
theorem Reads.eq_tokens {g : Text} {ts : List Token} (h : Reads g ts) : ts = tokens g := by
  induction h with
  | nil => rfl
  | any _ ih => rw [tokens_stars, ih]
  | segment hrest _ ih => rw [tokens_star hrest, ih]
  | one _ ih => rw [tokens_question, ih]
  | literal hs hq _ ih => rw [tokens_literal hs hq, ih]

/-- **A glob has exactly one reading.** -/
theorem reads_iff {g : Text} {ts : List Token} : Reads g ts ↔ ts = tokens g := by
  constructor
  · exact Reads.eq_tokens
  · rintro rfl
    exact reads_tokens g

/-- **Globs in a row.** Unless a star ends the first glob and another one starts the second, no star is
read together with one of the other glob, so each glob is read as it would be alone. -/
theorem tokens_append {front rest : Text}
    (h : front.getLast? = some '*' → rest.head? ≠ some '*') :
    tokens (front ++ rest) = tokens front ++ tokens rest := by
  -- what ends the rest of a glob ends the whole glob
  have hlast : ∀ (c : Char) (tail : Text),
      tail.getLast? = some '*' → (c :: tail).getLast? = some '*' := by
    intro c tail htail
    rw [List.getLast?_cons, htail]
    rfl
  have hreads : Reads front (tokens front) := reads_tokens front
  generalize tokens front = ts at hreads
  induction hreads with
  | nil => rfl
  | @any tail ts _ ih =>
    rw [List.cons_append, List.cons_append, tokens_stars, List.cons_append]
    rw [ih fun htail => h (hlast _ _ (hlast _ _ htail))]
  | @segment tail ts hnext _ ih =>
    have hhead : (tail ++ rest).head? ≠ some '*' := by
      cases tail with
      | nil => exact h rfl
      | cons c tail => exact hnext
    rw [List.cons_append, tokens_star hhead, ih fun htail => h (hlast _ _ htail), List.cons_append]
  | @one tail ts _ ih =>
    rw [List.cons_append, tokens_question, ih fun htail => h (hlast _ _ htail), List.cons_append]
  | @literal c tail ts hs hq _ ih =>
    rw [List.cons_append, tokens_literal hs hq, ih fun htail => h (hlast _ _ htail),
      List.cons_append]

/-! ## (2) Cutting a path into pieces -/

@[simp] theorem matches_nil_iff {path : Text} : Matches [] path ↔ path = [] := by
  constructor
  · rintro ⟨⟩
    rfl
  · rintro rfl
    exact .nil

/-- A path matches a token and others when a first piece is for the token and the rest for the
others. -/
theorem matches_cons_iff {t : Token} {ts : List Token} {path : Text} :
    Matches (t :: ts) path ↔
      ∃ piece rest, piece ++ rest = path ∧ t.Accepts piece ∧ Matches ts rest := by
  constructor
  · rintro ⟨⟩
    rename_i piece rest hpiece hrest
    exact ⟨piece, rest, rfl, hpiece, hrest⟩
  · rintro ⟨piece, rest, rfl, hpiece, hrest⟩
    exact .cons hpiece hrest

/-- **The language of a token list is cutting into pieces**, one piece for each token in order. -/
theorem matches_iff_pieces {ts : List Token} {path : Text} :
    Matches ts path ↔ ∃ pieces, List.Forall₂ Token.Accepts ts pieces ∧ pieces.flatten = path := by
  induction ts generalizing path with
  | nil => simp [eq_comm]
  | cons t ts ih =>
    rw [matches_cons_iff]
    constructor
    · rintro ⟨piece, rest, rfl, hpiece, hrest⟩
      obtain ⟨pieces, hpieces, rfl⟩ := ih.mp hrest
      exact ⟨piece :: pieces, .cons hpiece hpieces, rfl⟩
    · rintro ⟨pieces, hpieces, rfl⟩
      obtain ⟨piece, more, hpiece, hmore, rfl⟩ := List.forall₂_cons_left_iff.mp hpieces
      exact ⟨piece, more.flatten, rfl, hpiece, ih.mpr ⟨more, hmore, rfl⟩⟩

/-- **Concatenation.** A path matches two token lists in a row when it splits into a path for the
first and a path for the second. -/
theorem matches_append {ts us : List Token} {path : Text} :
    Matches (ts ++ us) path ↔ ∃ front back, front ++ back = path ∧ Matches ts front ∧
      Matches us back := by
  induction ts generalizing path with
  | nil => simp
  | cons t ts ih =>
    rw [List.cons_append, matches_cons_iff]
    constructor
    · rintro ⟨piece, rest, rfl, hpiece, hrest⟩
      obtain ⟨front, back, rfl, hfront, hback⟩ := ih.mp hrest
      exact ⟨piece ++ front, back, List.append_assoc .., .cons hpiece hfront, hback⟩
    · rintro ⟨front, back, rfl, hfront, hback⟩
      obtain ⟨piece, rest, rfl, hpiece, hrest⟩ := matches_cons_iff.mp hfront
      exact ⟨piece, rest ++ back, (List.append_assoc ..).symm, hpiece,
        ih.mpr ⟨rest, back, rfl, hrest, hback⟩⟩

/-- A text without wildcards matches only itself. -/
theorem matches_literals {text path : Text} :
    Matches (text.map Token.literal) path ↔ path = text := by
  induction text generalizing path with
  | nil => simp
  | cons c text ih =>
    rw [List.map_cons, matches_cons_iff]
    constructor
    · rintro ⟨piece, rest, rfl, rfl, hrest⟩
      rw [ih.mp hrest]
      rfl
    · rintro rfl
      exact ⟨[c], text, rfl, rfl, ih.mpr rfl⟩

/-- The token for any text matches every path. -/
@[simp] theorem matches_any (path : Text) : Matches [.any] path :=
  matches_cons_iff.mpr ⟨path, [], List.append_nil path, trivial, .nil⟩

/-! ## (3) The first character of a path -/

/-- Tokens match the empty path when the first one can take its end and the others match it. -/
theorem matches_cons_nil {t : Token} {ts : List Token} {here : Bool}
    (hhere : here = true ↔ Matches ts []) : Matches (t :: ts) [] ↔ t.takesEnd here = true := by
  have hcut : Matches (t :: ts) [] ↔ t.Accepts [] ∧ Matches ts [] := by
    rw [matches_cons_iff]
    constructor
    · rintro ⟨piece, rest, hnil, hpiece, hrest⟩
      obtain ⟨rfl, rfl⟩ := List.append_eq_nil_iff.mp hnil
      exact ⟨hpiece, hrest⟩
    · rintro ⟨hpiece, hrest⟩
      exact ⟨[], [], rfl, hpiece, hrest⟩
  cases t <;> simp [hcut, Token.takesEnd, hhere]

/-- A token that stands for one character takes the first character of a path. -/
theorem matches_single {t : Token} {ts : List Token} {c : Char} {path : Text}
    (h : ∀ piece, t.Accepts piece → ∃ a, piece = [a]) :
    Matches (t :: ts) (c :: path) ↔ t.Accepts [c] ∧ Matches ts path := by
  rw [matches_cons_iff]
  constructor
  · rintro ⟨piece, rest, hcut, hpiece, hrest⟩
    obtain ⟨a, rfl⟩ := h piece hpiece
    obtain ⟨rfl, rfl⟩ := List.cons.inj hcut
    exact ⟨hpiece, hrest⟩
  · rintro ⟨hpiece, hrest⟩
    exact ⟨[c], path, rfl, hpiece, hrest⟩

/-- A token that stands for a text of any length takes nothing of a path, or its first character and
perhaps more. -/
theorem matches_many {t : Token} {ts : List Token} {c : Char} {path : Text} (hnil : t.Accepts [])
    (hcons : ∀ piece, t.Accepts (c :: piece) ↔ t.Accepts [c] ∧ t.Accepts piece) :
    Matches (t :: ts) (c :: path) ↔
      Matches ts (c :: path) ∨ t.Accepts [c] ∧ Matches (t :: ts) path := by
  rw [matches_cons_iff, matches_cons_iff]
  constructor
  · rintro ⟨piece, rest, hcut, hpiece, hrest⟩
    cases piece with
    | nil =>
      left
      rw [← hcut]
      exact hrest
    | cons a piece =>
      obtain ⟨rfl, rfl⟩ := List.cons.inj hcut
      obtain ⟨hfirst, hmore⟩ := (hcons piece).mp hpiece
      exact .inr ⟨hfirst, piece, rest, rfl, hmore, hrest⟩
  · rintro (hrest | ⟨hfirst, piece, rest, rfl, hmore, hrest⟩)
    · exact ⟨[], c :: path, rfl, hnil, hrest⟩
    · exact ⟨c :: piece, rest, rfl, (hcons piece).mpr ⟨hfirst, hmore⟩, hrest⟩

/-- **The step of the table.** Whether tokens match a path with a first character is decided by the
answers of the remaining tokens before and after that character, and of all of them after it. -/
theorem matches_cons_cons {t : Token} {ts : List Token} {c : Char} {path : Text}
    {here next again : Bool} (hhere : here = true ↔ Matches ts (c :: path))
    (hnext : next = true ↔ Matches ts path) (hagain : again = true ↔ Matches (t :: ts) path) :
    Matches (t :: ts) (c :: path) ↔ t.takes c here next again = true := by
  cases t with
  | literal a =>
    rw [matches_single (by rintro piece rfl; exact ⟨a, rfl⟩)]
    simp [Token.takes, hnext]
  | one =>
    rw [matches_single (by rintro piece ⟨a, -, rfl⟩; exact ⟨a, rfl⟩)]
    simp [Token.takes, hnext]
  | segment =>
    rw [matches_many (by simp) (by simp)]
    simp [Token.takes, hhere, hagain, @eq_comm _ '/' c]
  | any =>
    rw [matches_many (by simp) (by simp)]
    simp [Token.takes, hhere, hagain]

/-! ## (4) The table -/

/-- The answers of a token list on all suffixes of a path. -/
def Answers (ts : List Token) (path : Text) (answers : List Bool) : Prop :=
  List.Forall₂ (fun answer suffix => answer = true ↔ Matches ts suffix) answers path.tails

theorem answers_nil {ts : List Token} {answers : List Bool} :
    Answers ts [] answers ↔ ∃ here, (here = true ↔ Matches ts []) ∧ answers = [here] := by
  simp [Answers, List.forall₂_cons_right_iff]

/-- The first answer is the one for the whole path. -/
theorem answers_cons {ts : List Token} {c : Char} {path : Text} {answers : List Bool} :
    Answers ts (c :: path) answers ↔
      ∃ here below, (here = true ↔ Matches ts (c :: path)) ∧ Answers ts path below ∧
        answers = here :: below := by
  simp [Answers, List.forall₂_cons_right_iff]

/-- The first answer, whatever the path. -/
theorem Answers.headD {ts : List Token} {path : Text} {answers : List Bool}
    (h : Answers ts path answers) : answers.headD false = true ↔ Matches ts path := by
  cases path with
  | nil =>
    obtain ⟨here, hhere, rfl⟩ := answers_nil.mp h
    exact hhere
  | cons c path =>
    obtain ⟨here, below, hhere, -, rfl⟩ := answers_cons.mp h
    exact hhere

/-- The answers of no tokens. -/
theorem answers_lastRow (path : Text) : Answers [] path (lastRow path) := by
  induction path with
  | nil => exact answers_nil.mpr ⟨true, by simp, rfl⟩
  | cons c path ih => exact answers_cons.mpr ⟨false, lastRow path, by simp, ih, rfl⟩

/-- **A row is right** if the row of the remaining tokens is: induction on the path, each place being
decided by the place after it and by the two places beside it in the row before. -/
theorem Answers.row {ts : List Token} {path : Text} {old : List Bool} (h : Answers ts path old)
    (t : Token) : Answers (t :: ts) path (row t path old) := by
  induction path generalizing old with
  | nil =>
    obtain ⟨here, hhere, rfl⟩ := answers_nil.mp h
    exact answers_nil.mpr ⟨_, (matches_cons_nil hhere).symm, rfl⟩
  | cons c path ih =>
    obtain ⟨here, below, hhere, hbelow, rfl⟩ := answers_cons.mp h
    have hrow : Answers (t :: ts) path (Glob.row t path below) := ih hbelow
    exact answers_cons.mpr
      ⟨_, _, (matches_cons_cons hhere hbelow.headD hrow.headD).symm, hrow, rfl⟩

/-- **The table is right**: it holds the answers of the tokens on all suffixes. -/
theorem table_spec (ts : List Token) (path : Text) : Answers ts path (table path ts) := by
  induction ts with
  | nil => exact answers_lastRow path
  | cons t ts ih => exact ih.row t

/-- **Deciding by the table is membership in the language.** -/
theorem matchesTokens_iff {ts : List Token} {path : Text} :
    matchesTokens ts path = true ↔ Matches ts path :=
  (table_spec ts path).headD

end ChangeGate.Glob
