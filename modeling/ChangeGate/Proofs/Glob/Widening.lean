import ChangeGate.Proofs.Glob.Matcher
import Mathlib.Logic.Relation
import Mathlib.Order.CompletePartialOrder

/-! # Wider globs

The **language** of a glob is the product of the words of its tokens, so globs are compared in the Kleene
algebra of languages, without a path being cut. What a star stands for depends on the stars around it, but
behind a pair of stars one star more or less changes nothing (`any_mul_star`). A change is therefore to be
compared twice, as it stands and behind a star, and then it widens the glob whatever else precedes it
(`language_append_mono`). So no edit that **widens** a glob loses a path, and a run of two stars means the same
as any longer one (**`accepts_of_widens`**). -/

namespace ChangeGate.Glob

open Computability

/-! ## (1) The language of a glob -/

/-- The words of a token. -/
def Token.words (t : Token) : Language Char := t.atom.language

/-- **The language of a glob**: the words of its tokens in a row. -/
def language (g : Text) : Language Char := languageOf ((tokens g).map Token.atom)

theorem Token.mem_words {t : Token} {piece : Text} : piece ∈ t.words ↔ t.Accepts piece :=
  mem_atom_language

theorem mem_language {g path : Text} : path ∈ language g ↔ Matches (tokens g) path :=
  mem_languageOf_atoms

/-- **A compiled glob accepts its language**, whichever matcher was chosen for it. -/
theorem accepts_iff_mem_language [Engine] {g path : Text} {m : Matcher} (h : compile g = .ok m) :
    m.accepts path = true ↔ path ∈ language g := by
  rw [accepts_iff_matches h, mem_language]

/-- The first token of a glob, and the glob that the others are read from. -/
theorem language_of_tokens {g rest : Text} {t : Token} (h : tokens g = t :: tokens rest) :
    language g = t.words * language rest := by
  rw [language, h, List.map_cons, languageOf_cons]
  rfl

@[simp] theorem language_nil : language [] = 1 := rfl

@[simp] theorem language_stars (rest : Text) :
    language ('*' :: '*' :: rest) = Token.any.words * language rest :=
  language_of_tokens (tokens_stars rest)

theorem language_star {rest : Text} (h : rest.head? ≠ some '*') :
    language ('*' :: rest) = Token.segment.words * language rest :=
  language_of_tokens (tokens_star h)

@[simp] theorem language_question (rest : Text) :
    language ('?' :: rest) = Token.one.words * language rest :=
  language_of_tokens (tokens_question rest)

theorem language_literal {c : Char} (hs : c ≠ '*') (hq : c ≠ '?') (rest : Text) :
    language (c :: rest) = (Token.literal c).words * language rest :=
  language_of_tokens (tokens_literal hs hq rest)

/-- A glob that starts neither with a pair of stars nor with its only star starts with one and the same token,
whatever is put behind the glob. -/
theorem exists_language_start {c : Char} {rest : Text}
    (hpair : ∀ more, c = '*' → rest = '*' :: more → False) (hmore : c = '*' → rest ≠ []) :
    ∃ t : Token, ∀ s, language (c :: (rest ++ s)) = t.words * language (rest ++ s) := by
  by_cases hs : c = '*'
  · obtain ⟨d, more, rfl⟩ := List.exists_cons_of_ne_nil (hmore hs)
    have hd : d ≠ '*' := by
      rintro rfl
      exact hpair more hs rfl
    subst hs
    exact ⟨.segment, fun s => language_star (by simpa using hd)⟩
  · by_cases hq : c = '?'
    · subst hq
      exact ⟨.one, fun s => language_question _⟩
    · exact ⟨.literal c, fun s => language_literal hs hq _⟩

/-! ## (2) Comparing tokens -/

namespace Token

/-- Two stars take what any token takes. -/
theorem words_le_any (t : Token) : t.words ≤ any.words := fun _ _ => mem_words.mpr trivial

/-- A question mark takes every single character but a slash. -/
theorem literal_le_one {c : Char} (hc : c ≠ '/') : (literal c).words ≤ one.words := by
  intro piece hpiece
  obtain rfl : piece = [c] := mem_words.mp hpiece
  exact mem_words.mpr ⟨c, hc, rfl⟩

/-- A star takes what a question mark takes. -/
theorem one_le_segment : one.words ≤ segment.words := by
  intro piece hpiece
  obtain ⟨c, hc, rfl⟩ := mem_words.mp hpiece
  exact mem_words.mpr fun hslash => hc (List.mem_singleton.mp hslash).symm

/-- A star can take nothing. -/
theorem nothing_le_segment : 1 ≤ segment.words := by
  intro piece hpiece
  obtain rfl : piece = [] := hpiece
  exact mem_words.mpr List.not_mem_nil

/-- What two pairs of stars take in a row, one of them takes. -/
theorem any_mul_any : any.words * any.words = any.words := kstar_mul_kstar CharClass.every.language

/-- Behind a pair of stars, another token takes nothing that the pair does not take. -/
theorem any_mul_words_le (t : Token) : any.words * t.words ≤ any.words :=
  calc any.words * t.words
      ≤ any.words * any.words := mul_le_mul_right t.words_le_any _
    _ = any.words := any_mul_any

/-- A star behind a pair of stars adds nothing to it. -/
theorem any_mul_segment : any.words * segment.words = any.words := by
  refine le_antisymm (any_mul_words_le segment) ?_
  calc any.words
      = any.words * 1 := (mul_one _).symm
    _ ≤ any.words * segment.words := mul_le_mul_right nothing_le_segment _

end Token

/-! ## (3) Stars side by side -/

/-- **Behind a pair of stars, one more star changes nothing**, although it may be paired with the star that
follows it: induction on the glob behind it. -/
theorem any_mul_star (rest : Text) :
    Token.any.words * language ('*' :: rest) = Token.any.words * language rest := by
  induction rest with
  | nil => rw [language_star (by simp), ← mul_assoc, Token.any_mul_segment]
  | cons c rest ih =>
    by_cases hc : c = '*'
    · subst hc
      rw [language_stars, ← mul_assoc, Token.any_mul_any, ih]
    · have hhead : (c :: rest).head? ≠ some '*' := by simpa using hc
      rw [language_star hhead, ← mul_assoc, Token.any_mul_segment]

/-- A star takes at most what a pair of stars takes in its place. -/
theorem language_star_le (rest : Text) :
    language ('*' :: rest) ≤ Token.any.words * language rest := by
  by_cases hhead : rest.head? = some '*'
  · obtain ⟨more, rfl⟩ := List.head?_eq_some_iff.mp hhead
    rw [language_stars, any_mul_star]
  · rw [language_star hhead]
    exact mul_le_mul_left (Token.words_le_any .segment) _

/-- A star takes at least what it would take alone, whatever it is paired with. -/
theorem segment_mul_le (rest : Text) :
    Token.segment.words * language rest ≤ language ('*' :: rest) := by
  by_cases hhead : rest.head? = some '*'
  · obtain ⟨more, rfl⟩ := List.head?_eq_some_iff.mp hhead
    rw [language_stars, ← any_mul_star]
    exact mul_le_mul_left (Token.words_le_any .segment) _
  · rw [language_star hhead]

/-- **What widens a glob in two places widens it everywhere.** The end of a glob is read as it stands, or its
first star is paired with a star in front of it; so it is enough to compare the ends as they stand and behind
a star. The induction takes the tokens off the front. -/
theorem language_append_mono {s s' : Text} (hends : language s ≤ language s')
    (hstar : language ('*' :: s) ≤ language ('*' :: s')) (front : Text) :
    language (front ++ s) ≤ language (front ++ s') := by
  induction front using tokens.induct with
  | case1 => exact hends
  | case2 rest ih =>
    rw [List.cons_append, List.cons_append, List.cons_append, List.cons_append, language_stars,
      language_stars]
    exact mul_le_mul_right ih _
  | case3 c rest hpair ih =>
    by_cases honly : c = '*' ∧ rest = []
    · -- only here does what follows decide how the star is read
      obtain ⟨rfl, rfl⟩ := honly
      exact hstar
    · obtain ⟨t, ht⟩ := exists_language_start hpair fun hc hrest => honly ⟨hc, hrest⟩
      rw [List.cons_append, List.cons_append, ht, ht]
      exact mul_le_mul_right ih _

/-! ## (4) Edits that widen a glob -/

/-- **An edit that widens a glob** at one place. -/
inductive Widens : Text → Text → Prop where
  /-- A character that is neither a wildcard nor a slash becomes a question mark. -/
  | question (front rest : Text) {c : Char} : c ≠ '*' → c ≠ '?' → c ≠ '/' →
      Widens (front ++ c :: rest) (front ++ '?' :: rest)
  /-- A question mark becomes a star. -/
  | star (front rest : Text) : Widens (front ++ '?' :: rest) (front ++ '*' :: rest)
  /-- A star is put next to a star; on either side of it that gives the same glob. -/
  | more (front rest : Text) : Widens (front ++ '*' :: rest) (front ++ '*' :: '*' :: rest)

/-- **A widening edit keeps every path** that the glob had. -/
theorem Widens.language_le {g g' : Text} (h : Widens g g') : language g ≤ language g' := by
  cases h with
  | @question front rest c hs hq hslash =>
    have hends : language (c :: rest) ≤ language ('?' :: rest) := by
      rw [language_literal hs hq, language_question]
      exact mul_le_mul_left (Token.literal_le_one hslash) _
    refine language_append_mono hends ?_ front
    rw [language_star (by simpa using hs), language_star (by simp)]
    exact mul_le_mul_right hends _
  | star front rest =>
    refine language_append_mono ?_ ?_ front
    · rw [language_question]
      exact (mul_le_mul_left Token.one_le_segment _).trans (segment_mul_le rest)
    · -- the new star is paired with the star in front of it
      rw [language_star (by simp), language_question, language_stars, ← mul_assoc]
      refine mul_le_mul_left ?_ _
      exact (mul_le_mul_left (Token.words_le_any .segment) _).trans (Token.any_mul_words_le .one)
  | more front rest =>
    refine language_append_mono ?_ ?_ front
    · rw [language_stars]
      exact language_star_le rest
    · rw [language_stars, language_stars, any_mul_star]

/-- Any number of widening edits keeps every path. -/
theorem language_le_of_edits {g g' : Text} (h : Relation.ReflTransGen Widens g g') :
    language g ≤ language g' := by
  induction h with
  | refl => exact le_rfl
  | tail _ hedit ih => exact ih.trans hedit.language_le

/-- A third star in a row changes nothing, whatever stands before it and behind it. -/
theorem language_thirdStar (front rest : Text) :
    language (front ++ '*' :: '*' :: '*' :: rest) = language (front ++ '*' :: '*' :: rest) := by
  have hends : language ('*' :: '*' :: '*' :: rest) = language ('*' :: '*' :: rest) := by
    rw [language_stars, language_stars, any_mul_star]
  have hstar : language ('*' :: '*' :: '*' :: '*' :: rest) = language ('*' :: '*' :: '*' :: rest) := by
    rw [language_stars, language_stars, language_stars, ← mul_assoc, Token.any_mul_any, any_mul_star]
  exact le_antisymm (language_append_mono hends.le hstar.le front)
    (language_append_mono hends.ge hstar.ge front)

/-- **A run of two or more stars means the same as two**: induction on the number of further stars. -/
theorem language_run {n : Nat} (hn : 2 ≤ n) (front rest : Text) :
    language (front ++ List.replicate n '*' ++ rest) = language (front ++ '*' :: '*' :: rest) := by
  induction n, hn using Nat.le_induction with
  | base => rw [List.append_assoc]; rfl
  | succ n hn ih =>
    obtain ⟨more, rfl⟩ := Nat.exists_eq_add_of_le' hn
    rw [List.replicate_succ, List.replicate_succ, List.replicate_succ, List.append_assoc] at *
    exact (language_thirdStar front _).trans ih

/-! ## (5) Compiled globs -/

/-- **Widening a glob never loses a path.** A path that a glob matches is matched after every edit that widens
the glob, also where the edit pairs the stars around it in another way or leads to another matcher. And globs
that differ only in the length of a run of two or more stars match the same paths. -/
theorem accepts_of_widens [Engine] {g g' : Text} {m m' : Matcher} (hg : compile g = .ok m)
    (hg' : compile g' = .ok m') (path : Text) :
    (Widens g g' → m.accepts path = true → m'.accepts path = true) ∧
    (∀ front rest n k, 2 ≤ n → 2 ≤ k → g = front ++ List.replicate n '*' ++ rest →
      g' = front ++ List.replicate k '*' ++ rest →
      (m.accepts path = true ↔ m'.accepts path = true)) := by
  rw [accepts_iff_mem_language hg, accepts_iff_mem_language hg']
  constructor
  · intro hedit hpath
    exact hedit.language_le hpath
  · rintro front rest n k hn hk rfl rfl
    rw [language_run hn, language_run hk]

/-- A third star at the end: the start of the path is compared before the edit, and tokens after it. -/
theorem accepts_of_widens_thirdStar :
    compile "src/**".toList = .ok (.lead "src/".toList) ∧
    compile "src/***".toList = .ok (.general "src/***".toList) ∧
    Widens "src/**".toList "src/***".toList ∧
    ((Matcher.lead "src/".toList).accepts "src/a/b".toList = true →
      (Matcher.general "src/***".toList).accepts "src/a/b".toList = true) ∧
    ((Matcher.lead "src/".toList).accepts "src".toList = true ↔
      (Matcher.general "src/***".toList).accepts "src".toList = true) := by
  have hg : compile "src/**".toList = .ok (.lead "src/".toList) := by decide
  have hg' : compile "src/***".toList = .ok (.general "src/***".toList) := by decide
  have hedit : Widens "src/**".toList "src/***".toList := .more "src/".toList ['*']
  exact ⟨hg, hg', hedit, (accepts_of_widens hg hg' _).1 hedit,
    (accepts_of_widens hg hg' _).2 "src/".toList [] 2 3 (by decide) (by decide) rfl rfl⟩

end ChangeGate.Glob
